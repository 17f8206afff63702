import Mathlib.Algebra.Ring.Int.Defs
import Mathlib.Algebra.Ring.Nat
import Trampoline.Width

/-!
# Numbers extended by their sign

* `setWidth_signExtend`: an extension by the sign, cut to fewer bits;
* `toInt_emod_two_pow`, `toInt_signExtend`: the number that the low bits of a word stand for, without and
  with a sign.
-/

namespace Trampoline

namespace Width

/-- Cutting a sign-extended number to a width in between is the same as extending it less. -/
theorem setWidth_signExtend {k n w : Nat} (x : BitVec k) (h : w ≤ n) :
    (x.signExtend n).setWidth w = x.signExtend w := by
  apply BitVec.eq_of_getLsbD_eq
  intro i hi
  have hn : i < n := by omega
  simp only [BitVec.getLsbD_setWidth, BitVec.getLsbD_signExtend, hi, hn, decide_true,
    Bool.true_and]

theorem bits_le_64 (w : Width) : w.bits ≤ 64 := by cases w <;> decide

/-- Whether the top bit of a word is a sign makes no difference for its remainder by a power of two. -/
theorem toInt_emod_two_pow {n : Nat} (x : Word) (h : n ≤ 64) :
    x.toInt % 2 ^ n = (x.toNat : Int) % 2 ^ n := by
  have hdvd : (2 ^ n : Int) ∣ ((2 ^ 64 : Nat) : Int) := by exact_mod_cast Nat.pow_dvd_pow 2 h
  calc x.toInt % 2 ^ n
      = (x.toNat : Int).bmod (2 ^ 64) % ((2 ^ 64 : Nat) : Int) % 2 ^ n := by
        rw [Int.emod_emod_of_dvd _ hdvd, ← BitVec.toInt_eq_toNat_bmod]
    _ = (x.toNat : Int) % 2 ^ n := by rw [Int.bmod_emod, Int.emod_emod_of_dvd _ hdvd]

/-- The low bits with a sign are the remainder that is balanced around zero. -/
theorem toInt_signExtend (w : Width) (x : Word) :
    (w.signExtend x).toInt = x.toInt.bmod (2 ^ w.bits) := by
  have hdvd : 2 ^ w.bits ∣ 2 ^ 64 := Nat.pow_dvd_pow 2 w.bits_le_64
  calc (w.signExtend x).toInt
      = (x.setWidth w.bits).toInt := BitVec.toInt_signExtend_of_le w.bits_le_64
    _ = (x.toNat : Int).bmod (2 ^ w.bits) := BitVec.toInt_setWidth x
    _ = x.toInt.bmod (2 ^ w.bits) := by
        rw [BitVec.toInt_eq_toNat_bmod x, Int.bmod_bmod_of_dvd hdvd]

end Width

end Trampoline
