import Trampoline.Address

/-!
# Integer widths

The four sizes of a native integer.

* `Width.bits`, `Width.bytes`, `Width.ofBits?`;
* `Width.signExtend`: the low bits of a word read as a signed number and written out in full.
-/

namespace Trampoline

/-- The size of a native integer; the widths are ordered by size. -/
inductive Width
  | w8
  | w16
  | w32
  | w64
  deriving DecidableEq, Ord

namespace Width

/-- The number of bits. -/
def bits : Width → Nat
  | w8 => 8
  | w16 => 16
  | w32 => 32
  | w64 => 64

/-- The number of bytes. -/
def bytes (w : Width) : Nat := w.bits / 8

/-- The width of that many bits, if it is one of the four. -/
def ofBits? : Nat → Option Width
  | 8 => some w8
  | 16 => some w16
  | 32 => some w32
  | 64 => some w64
  | _ => none

@[simp] theorem ofBits?_bits (w : Width) : ofBits? w.bits = some w := by cases w <;> rfl

/-- Only the four widths are read back from a number of bits. -/
theorem ofBits?_eq_some_iff {n : Nat} {w : Width} : ofBits? n = some w ↔ n = w.bits := by
  constructor
  · unfold ofBits?
    split <;> simp only [Option.some.injEq, reduceCtorEq, false_implies]
    all_goals rintro rfl; rfl
  · rintro rfl; exact ofBits?_bits w

/-- The low `w.bits` bits of `x` as a signed number, extended to a whole word. -/
def signExtend (w : Width) (x : Word) : Word := (x.setWidth w.bits).signExtend 64

end Width

end Trampoline
