import Mathlib.Algebra.Ring.Nat
import Trampoline.Rounding

/-!
# Rounding up, by rests and by powers

* `ceilDiv_eq`, `roundUp_eq`: rounding up, from what a division leaves;
* `leastPowerOfTwo_isPow`, `le_leastPowerOfTwo`, `leastPowerOfTwo_le`: the least power of two not
  below `n` is a power of two, is not below `n`, and is the least one;
* `leastPowerOfTwo_lt_iff`: when it stays below another power.
-/

namespace Trampoline

/-! ### What a division leaves -/

theorem ceilDiv_eq (n : Nat) {a : Nat} (ha : 0 < a) :
    ceilDiv n a = if n % a = 0 then n / a else n / a + 1 := by
  have hlt := Nat.mod_lt n ha
  have hn : n / a * a + n % a = n := Nat.div_add_mod' n a
  unfold ceilDiv
  by_cases hrest : n % a = 0
  · rw [if_pos hrest]
    apply Nat.div_eq_of_lt_le
    · omega
    · rw [Nat.succ_mul]
      omega
  · rw [if_neg hrest]
    apply Nat.div_eq_of_lt_le
    · rw [Nat.succ_mul]
      omega
    · rw [Nat.succ_mul, Nat.succ_mul]
      omega

theorem roundUp_eq (n : Nat) {a : Nat} (ha : 0 < a) :
    roundUp n a = if n % a = 0 then n else n + (a - n % a) := by
  have hlt := Nat.mod_lt n ha
  have hn : n / a * a + n % a = n := Nat.div_add_mod' n a
  rw [roundUp, ceilDiv_eq n ha]
  by_cases hrest : n % a = 0
  · rw [if_pos hrest, if_pos hrest]
    omega
  · rw [if_neg hrest, if_neg hrest, Nat.succ_mul]
    omega

/-! ### Powers of two -/

theorem leastPowerOfTwo_isPow (n : Nat) : ∃ k, leastPowerOfTwo n = 2 ^ k := by
  unfold leastPowerOfTwo
  split
  · exact ⟨0, rfl⟩
  · exact ⟨_, Nat.one_shiftLeft _⟩

theorem le_leastPowerOfTwo (n : Nat) : n ≤ leastPowerOfTwo n := by
  unfold leastPowerOfTwo
  split
  · assumption
  · have := Nat.lt_log2_self (n := n - 1)
    rw [Nat.one_shiftLeft]
    omega

theorem leastPowerOfTwo_le {n k : Nat} (h : n ≤ 2 ^ k) : leastPowerOfTwo n ≤ 2 ^ k := by
  unfold leastPowerOfTwo
  split
  · exact Nat.one_le_two_pow
  · have : (n - 1).log2 < k := (Nat.log2_lt (by omega)).2 (by omega)
    rw [Nat.one_shiftLeft]
    exact Nat.pow_le_pow_right (by decide) this

/-- The least power of two stays below the next power of one that is not below `n`. -/
theorem leastPowerOfTwo_lt_iff {n k : Nat} : leastPowerOfTwo n < 2 ^ (k + 1) ↔ n ≤ 2 ^ k := by
  constructor
  · intro h
    obtain ⟨j, hj⟩ := leastPowerOfTwo_isPow n
    rw [hj, Nat.pow_lt_pow_iff_right (by decide)] at h
    calc n ≤ 2 ^ j := hj ▸ le_leastPowerOfTwo n
      _ ≤ 2 ^ k := Nat.pow_le_pow_right (by decide) (by omega)
  · intro h
    calc leastPowerOfTwo n ≤ 2 ^ k := leastPowerOfTwo_le h
      _ < 2 ^ (k + 1) := Nat.pow_lt_pow_right (by decide) (by omega)

end Trampoline
