/-!
# Bytes

Stretches of machine memory as lists of bytes, and numbers spelled in them with the least
significant byte first.

* `Bytes.ofNat n v`: the `n` low-order bytes of `v`;
* `Bytes.toNat`: the number that a list of bytes spells;
* `Bytes.slice?`, `Bytes.splice?`: reading and overwriting a range that lies inside a buffer;
* `ofNat_toNat`: every stretch of memory is the spelling of its number.

A range is never cut to fit: an access that leaves the buffer answers `none`.
-/

namespace Trampoline

/-- One byte of memory. -/
abbrev Byte := BitVec 8

/-- A stretch of memory, from its lowest address up. -/
abbrev Bytes := List Byte

namespace Bytes

/-- The `n` low-order bytes of `v`, least significant first. -/
def ofNat : Nat → Nat → Bytes
  | 0, _ => []
  | n + 1, v => BitVec.ofNat 8 v :: ofNat n (v / 256)

/-- The number that the bytes spell, least significant first. -/
def toNat : Bytes → Nat
  | [] => 0
  | b :: bs => b.toNat + 256 * toNat bs

@[simp] theorem length_ofNat (n v : Nat) : (ofNat n v).length = n := by
  induction n generalizing v with
  | zero => rfl
  | succ n ih => simp [ofNat, ih]

/-- Every stretch of memory is the spelling of the number it spells. -/
theorem ofNat_toNat (bs : Bytes) : ofNat bs.length (toNat bs) = bs := by
  induction bs with
  | nil => rfl
  | cons b bs ih =>
    have h : (b.toNat + 256 * toNat bs) / 256 = toNat bs := by have := b.isLt; omega
    rw [List.length_cons, ofNat, toNat, h, ih]
    congr 1
    apply BitVec.eq_of_toNat_eq
    have := b.isLt
    rw [BitVec.toNat_ofNat]
    omega

/-- The `size` bytes at `offset`, if they all lie inside the buffer. -/
def slice? (buffer : Bytes) (offset size : Nat) : Option Bytes :=
  if offset + size ≤ buffer.length then some ((buffer.drop offset).take size) else none

/-- The buffer with `new` written at `offset`, if it fits there. -/
def splice? (buffer : Bytes) (offset : Nat) (new : Bytes) : Option Bytes :=
  if offset + new.length ≤ buffer.length then
    some (buffer.take offset ++ new ++ buffer.drop (offset + new.length))
  else
    none

/-- Writing never changes the size of a buffer. -/
theorem length_of_splice? {buffer new result : Bytes} {offset : Nat}
    (h : splice? buffer offset new = some result) : result.length = buffer.length := by
  unfold splice? at h
  split at h
  · injection h with h
    subst h
    simp only [List.length_append, List.length_take, List.length_drop]
    omega
  · contradiction

end Bytes

end Trampoline
