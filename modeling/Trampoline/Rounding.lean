/-!
# Rounding up

* `ceilDiv n a`: how many blocks of size `a` hold `n`;
* `roundUp n a`: the least multiple of `a` not below `n`;
* `leastPowerOfTwo n`: the least power of two not below `n`.
-/

namespace Trampoline

/-- The number of blocks of size `a` that hold `n`. -/
def ceilDiv (n a : Nat) : Nat := (n + a - 1) / a

/-- The least multiple of `a` not below `n`. -/
def roundUp (n a : Nat) : Nat := ceilDiv n a * a

/-- So many blocks are enough, and no fewer are. -/
theorem ceilDiv_le_iff {n a k : Nat} (ha : 0 < a) : ceilDiv n a ≤ k ↔ n ≤ k * a := by
  unfold ceilDiv
  rw [Nat.div_le_iff_le_mul ha]
  omega

theorem le_roundUp (n : Nat) {a : Nat} (ha : 0 < a) : n ≤ roundUp n a :=
  (ceilDiv_le_iff ha).1 (Nat.le_refl _)

theorem dvd_roundUp (n a : Nat) : a ∣ roundUp n a := Nat.dvd_mul_left _ _

theorem roundUp_le {n a m : Nat} (ha : 0 < a) (hn : n ≤ m) (hm : a ∣ m) : roundUp n a ≤ m := by
  obtain ⟨k, rfl⟩ := hm
  rw [Nat.mul_comm a k] at hn ⊢
  exact Nat.mul_le_mul_right a ((ceilDiv_le_iff ha).2 hn)

/-- Rounding adds less than one whole block. -/
theorem roundUp_lt (n : Nat) {a : Nat} (ha : 0 < a) : roundUp n a < n + a := by
  have := Nat.div_mul_le_self (n + a - 1) a
  unfold roundUp ceilDiv
  omega

/-- The least power of two not below `n`. -/
def leastPowerOfTwo (n : Nat) : Nat := if n ≤ 1 then 1 else 1 <<< ((n - 1).log2 + 1)

end Trampoline
