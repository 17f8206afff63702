import Mathlib.Data.Nat.Basic
import Mathlib.Order.Basic
import Trampoline.Bytes.Lemmas
import Trampoline.Scalar
import Trampoline.Width.Lemmas

/-!
# Values in their fields

A value in memory has a field of as many bytes as its kind has on the platform. Writing and reading are
defined apart from each other, by the bits of the value and by those of the field.

* `Scalar.Supported`, `fieldSize_of_supported`, `fieldSize_of_not_supported`: the kinds of values that a
  platform has;
* `toBytes_ofBytes`: a field that was read is written back as it was, but for truth values;
* `Scalar.ReadBack`, `readBack_ofBytes`: what comes of a value that is written and read;
* `toBytes_ofBytes_toBytes`: writing that again gives the same field.
-/

namespace Trampoline

namespace Scalar

variable {p : Platform} {s : Scalar}

/-- A platform has values of a kind: only a `long` or an address may have a size that it lacks. -/
def Supported (p : Platform) (s : Scalar) : Prop :=
  s = .long ∨ s = .address → s.storedBits p = 32 ∨ s.storedBits p = 64

theorem integerField_of_known {bits : Nat} (h : bits = 32 ∨ bits = 64) :
    integerField bits = .ok (bits / 8) := by
  rcases h with rfl | rfl <;> rfl

theorem integerField_of_unknown {bits : Nat} (h : ¬ (bits = 32 ∨ bits = 64)) :
    integerField bits = .error (.unsupportedWidth bits) := by
  rw [not_or] at h
  rw [integerField, if_neg h.1, if_neg h.2]

/-- An access touches as many bytes as a value is said to take. -/
theorem fieldSize_of_supported (h : s.Supported p) : s.fieldSize p = .ok (s.size p) := by
  cases s with
  | long => exact integerField_of_known (h (.inl rfl))
  | address => exact integerField_of_known (h (.inr rfl))
  | _ => simp only [fieldSize, size, storedBits]

theorem fieldSize_of_not_supported (h : ¬ s.Supported p) :
    s.fieldSize p = .error (.unsupportedWidth (s.storedBits p)) := by
  cases s with
  | long => exact integerField_of_unknown fun hbits => h fun _ => hbits
  | address => exact integerField_of_unknown fun hbits => h fun _ => hbits
  | _ => exact absurd (fun hkind => by rcases hkind with hkind | hkind <;> cases hkind) h

/-- Fields are whole bytes. -/
theorem eight_mul_size (h : s.Supported p) : 8 * s.size p = s.storedBits p := by
  cases s with
  | long => rcases h (.inl rfl) with h | h <;> rw [size, h]
  | address => rcases h (.inr rfl) with h | h <;> rw [size, h]
  | _ => simp only [size, storedBits]

/-- No field is larger than the value, but for truth values. -/
theorem storedBits_le_bits (h : s.Supported p) (hs : s ≠ .bool) : s.storedBits p ≤ s.bits := by
  cases s with
  | bool => exact absurd rfl hs
  | long => rcases h (.inl rfl) with h | h <;> rw [h] <;> decide
  | address => rcases h (.inr rfl) with h | h <;> rw [h] <;> decide
  | _ => exact le_rfl

@[simp] theorem length_toBytes (n : Nat) (v : s.Value) : (s.toBytes n v).length = n :=
  Bytes.length_ofNat n _

/-! ### From the field to the value and back -/

/-- A field shows the low bits of a value, and nothing else of it. -/
theorem toBytes_eq (n : Nat) (v : s.Value) :
    s.toBytes n v = Bytes.ofNat n (v.setWidth (8 * n)).toNat := by
  rw [toBytes, BitVec.toNat_setWidth, Nat.pow_mul]
  exact (Bytes.ofNat_mod n v.toNat).symm

/-- However a value is extended above its field, its low bits are those of the field. -/
theorem setWidth_ofBytes {field : Bytes} (h : 8 * field.length ≤ s.bits) :
    (s.ofBytes field).setWidth (8 * field.length) = BitVec.ofNat (8 * field.length) field.toNat := by
  cases s with
  | long => exact (Width.setWidth_signExtend _ h).trans (BitVec.signExtend_eq _)
  | _ => exact BitVec.setWidth_ofNat_of_le h _

/-- A field that was read is written back as it was. -/
theorem toBytes_ofBytes (h : s.Supported p) (hs : s ≠ .bool) {field : Bytes}
    (hlen : field.length = s.size p) : s.toBytes (s.size p) (s.ofBytes field) = field := by
  have hroom : 8 * field.length ≤ s.bits := by
    rw [hlen, eight_mul_size h]
    exact storedBits_le_bits h hs
  rw [toBytes_eq, ← hlen, setWidth_ofBytes hroom, BitVec.toNat_ofNat, Nat.pow_mul,
    Nat.mod_eq_of_lt field.toNat_lt, Bytes.ofNat_toNat]

/-- Of a truth value only the lowest bit is written back. -/
theorem toBytes_ofBytes_bool (n : Nat) (field : Bytes) :
    Scalar.bool.toBytes n (Scalar.bool.ofBytes field) = Bytes.ofNat n (field.toNat % 2) :=
  congrArg (Bytes.ofNat n) (BitVec.toNat_ofNat _ _)

/-! ### From the value to the field and back -/

/-- How a value stands to what is read where it was written: a `long` is cut to its size on the platform
and extended by its sign, an address is cut and extended by zeros, and all else is as it was. -/
def ReadBack (p : Platform) : (s : Scalar) → s.Value → s.Value → Prop
  | long, v, v' => ∃ w, Width.ofBits? p.longBits = some w ∧ v' = w.signExtend v
  | address, v, v' => v'.toNat = v.toNat % 2 ^ p.addressBits
  | _, v, v' => v' = v

/-- The number in a field is made of the low bits of the value. -/
theorem ofNat_toBytes (n : Nat) (v : s.Value) :
    BitVec.ofNat (8 * n) (s.toBytes n v).toNat = v.setWidth (8 * n) := by
  apply BitVec.eq_of_toNat_eq
  rw [toBytes, Bytes.toNat_ofNat, BitVec.toNat_ofNat, BitVec.toNat_setWidth, Nat.pow_mul, Nat.mod_mod]

/-- A value that its field holds entirely comes back. -/
theorem ofNat_toBytes_of_le {n : Nat} (h : s.bits ≤ 8 * n) (v : s.Value) :
    BitVec.ofNat s.bits (s.toBytes n v).toNat = v := by
  rw [← BitVec.setWidth_ofNat_of_le h, ofNat_toBytes, BitVec.setWidth_setWidth_of_le _ h,
    BitVec.setWidth_eq]

theorem ofBytes_long {field : Bytes} {n : Nat} (h : field.length = n) :
    Scalar.long.ofBytes field = (BitVec.ofNat (8 * n) field.toNat).signExtend 64 := by
  subst h
  rfl

theorem toNat_ofBytes_address (n : Nat) (v : Scalar.address.Value) :
    (Scalar.address.ofBytes (Scalar.address.toBytes n v)).toNat = v.toNat % 2 ^ (8 * n) := by
  have hbytes : (Scalar.address.toBytes n v).toNat = v.toNat % 2 ^ (8 * n) :=
    (Bytes.toNat_ofNat n _).trans (by rw [Nat.pow_mul])
  have hlt : v.toNat % 2 ^ (8 * n) < 2 ^ 64 := (Nat.mod_le _ _).trans_lt v.isLt
  calc (Scalar.address.ofBytes (Scalar.address.toBytes n v)).toNat
      = (Scalar.address.toBytes n v).toNat % 2 ^ 64 := BitVec.toNat_ofNat _ _
    _ = v.toNat % 2 ^ (8 * n) := by rw [hbytes, Nat.mod_eq_of_lt hlt]

/-- What is read where a value was written. -/
theorem readBack_ofBytes (h : s.Supported p) (v : s.Value) :
    s.ReadBack p v (s.ofBytes (s.toBytes (s.size p) v)) := by
  cases s with
  | long =>
    have hbits : 8 * size p .long = p.longBits := eight_mul_size h
    obtain ⟨w, hw⟩ : ∃ w, Width.ofBits? p.longBits = some w := by
      rcases h (.inl rfl) with h | h
      · exact ⟨.w32, Width.ofBits?_eq_some_iff.2 h⟩
      · exact ⟨.w64, Width.ofBits?_eq_some_iff.2 h⟩
    have hread : Scalar.long.ofBytes (Scalar.long.toBytes (size p .long) v) =
        (v.setWidth (8 * size p .long)).signExtend 64 := by
      rw [ofBytes_long (length_toBytes _ _), ofNat_toBytes]
    rw [hbits, Width.ofBits?_eq_some_iff.1 hw] at hread
    exact ⟨w, hw, hread⟩
  | address =>
    have hbits : 8 * size p .address = p.addressBits := eight_mul_size h
    exact (toNat_ofBytes_address _ v).trans (by rw [hbits])
  | _ => exact ofNat_toBytes_of_le (by simp only [size, bits, storedBits]; omega) v

/-- What was read where a value was written is written as the value was. -/
theorem toBytes_ofBytes_toBytes (h : s.Supported p) (v : s.Value) :
    s.toBytes (s.size p) (s.ofBytes (s.toBytes (s.size p) v)) = s.toBytes (s.size p) v := by
  by_cases hs : s = .bool
  · subst hs
    have hv : Scalar.bool.ofBytes (Scalar.bool.toBytes (size p .bool) v) = v := readBack_ofBytes h v
    rw [hv]
  · exact toBytes_ofBytes h hs (length_toBytes _ _)

end Scalar

end Trampoline
