import Trampoline.IntegerType
import Trampoline.Width.Lemmas

/-!
# Integers in words

What becomes of a number that is written to a word and read again, perhaps as another type, and of a word
that one type after another reads and writes out again.

* `narrow_widen`, `toInt_widen`: a word keeps the value that was written to it, and the number;
* `toInt_widen_narrow`: the number that is left of a word when it was read and written out again;
* `narrow_widen_of_le`: what a reader sees of a value that is no shorter than its own;
* `relay`, `narrow_relay_iff`: the same through any number of types;
* `Carried`, `carried`: all of it, for every type.
-/

namespace Trampoline

namespace IntegerType

variable {t u : IntegerType}

/-! ### One type -/

theorem bits_lt_of_unsigned (h : t.signed = false) : t.width.bits < 64 := by
  revert h
  cases t <;> decide

/-- A reader of no more bits than the value has sees the value's low bits, however it was extended. -/
theorem narrow_widen_of_le (h : t.width.bits ≤ u.width.bits) (v : u.Value) :
    t.narrow (u.widen v) = v.setWidth t.width.bits := by
  have hword : t.width.bits ≤ 64 := t.width.bits_le_64
  unfold narrow widen
  split
  · rw [Width.setWidth_signExtend v hword, BitVec.signExtend_eq_setWidth_of_le v h]
  · exact BitVec.setWidth_setWidth_of_le v hword

theorem narrow_widen (t : IntegerType) (v : t.Value) : t.narrow (t.widen v) = v :=
  (narrow_widen_of_le (Nat.le_refl _) v).trans (BitVec.setWidth_eq v)

/-- Zeros above a value leave room for the sign of the word. -/
theorem toInt_setWidth_of_lt {n : Nat} (h : n < 64) (v : BitVec n) : (v.setWidth 64).toInt = v.toNat := by
  have hlt : v.toNat < 2 ^ 63 := Nat.lt_of_lt_of_le v.isLt (Nat.pow_le_pow_right (by decide) (by omega))
  have hword : (v.setWidth 64).toNat = v.toNat := by
    rw [BitVec.toNat_setWidth, Nat.mod_eq_of_lt (by omega)]
  rw [BitVec.toInt_eq_toNat_of_lt (by omega), hword]

theorem toInt_widen (t : IntegerType) (v : t.Value) : (t.widen v).toInt = t.toInt v := by
  cases hsigned : t.signed with
  | true =>
    simp only [widen, toInt, hsigned, if_true]
    exact BitVec.toInt_signExtend_of_le t.width.bits_le_64
  | false =>
    simp only [widen, toInt, hsigned, Bool.false_eq_true, if_false]
    exact toInt_setWidth_of_lt (bits_lt_of_unsigned hsigned) v

/-- What is read from a word and written out again is the word's number, up to whole turns of the type's
range. -/
theorem toInt_widen_narrow (t : IntegerType) (x : Word) : (t.widen (t.narrow x)).toInt =
    if t.signed then (t.width.signExtend x).toInt else x.toInt % 2 ^ t.width.bits := by
  cases hsigned : t.signed with
  | true => simp only [widen, narrow, Width.signExtend, hsigned, if_true]
  | false =>
    have hnumber : ((x.setWidth t.width.bits).toNat : Int) = x.toInt % 2 ^ t.width.bits := by
      rw [BitVec.toNat_setWidth, Width.toInt_emod_two_pow x t.width.bits_le_64]
      push_cast
      rfl
    rw [toInt_widen, toInt, hsigned]
    exact hnumber

/-! ### One type after another -/

/-- A word that is read and written out again by one type after another. -/
def relay : List IntegerType → Word → Word
  | [], x => x
  | u :: us, x => relay us (u.widen (u.narrow x))

variable {us : List IntegerType} {x : Word}

theorem narrow_widen_narrow (h : t.width.bits ≤ u.width.bits) (x : Word) :
    t.narrow (u.widen (u.narrow x)) = t.narrow x := by
  rw [narrow_widen_of_le h, narrow, narrow, BitVec.setWidth_setWidth_of_le x h]

/-- Types that are no shorter than the reader's pass on what it sees. -/
theorem narrow_relay (h : ∀ u ∈ us, t.width.bits ≤ u.width.bits) (x : Word) :
    t.narrow (relay us x) = t.narrow x := by
  induction us generalizing x with
  | nil => rfl
  | cons u us ih =>
    obtain ⟨hu, hus⟩ := List.forall_mem_cons.1 h
    rw [relay, ih hus, narrow_widen_narrow hu]

@[simp] theorem narrow_zero (t : IntegerType) : t.narrow 0 = 0 := by simp [narrow]

@[simp] theorem widen_zero (t : IntegerType) : t.widen 0 = 0 := by cases t <;> rfl

@[simp] theorem relay_zero (us : List IntegerType) : relay us 0 = 0 := by
  induction us with
  | nil => rfl
  | cons u us ih => rw [relay, narrow_zero, widen_zero, ih]

/-- Where a type sees only zeros, it does so after any other type too: a longer one passes its bits on, and a
shorter one has only zeros to write out. -/
theorem narrow_widen_eq_zero (h : t.narrow x = 0) (u : IntegerType) :
    t.narrow (u.widen (u.narrow x)) = 0 := by
  rcases Nat.le_total t.width.bits u.width.bits with hle | hle
  · rw [narrow_widen_narrow hle, h]
  · have hu : u.narrow x = 0 := by
      calc u.narrow x
          = (t.narrow x).setWidth u.width.bits := (BitVec.setWidth_setWidth_of_le x hle).symm
        _ = 0 := by rw [h]; exact BitVec.setWidth_zero _ _
    rw [hu, widen_zero, narrow_zero]

/-- What one type cuts away does not come back. -/
theorem relay_eq_zero (hu : u ∈ us) (h : u.narrow x = 0) : relay us x = 0 := by
  induction us generalizing x with
  | nil => cases hu
  | cons u' us ih =>
    rcases List.mem_cons.1 hu with rfl | hu
    · rw [relay, h, widen_zero, relay_zero]
    · exact ih hu (narrow_widen_eq_zero h u')

theorem exists_narrow_eq_zero (h : u.width.bits < t.width.bits) :
    ∃ x, u.narrow x = 0 ∧ t.narrow x ≠ 0 := by
  have hword : u.width.bits < 64 := Nat.lt_of_lt_of_le h t.width.bits_le_64
  refine ⟨BitVec.twoPow 64 u.width.bits, ?_, fun hzero => ?_⟩
  · apply BitVec.eq_of_getLsbD_eq
    intro i hi
    have hne : u.width.bits ≠ i := by omega
    simp [narrow, BitVec.getLsbD_setWidth, BitVec.getLsbD_twoPow, hne]
  · have hbit := congrArg (fun v => BitVec.getLsbD v u.width.bits) hzero
    simp [narrow, h, hword] at hbit

/-- Only types that are no shorter than the reader's pass on all that it sees. -/
theorem narrow_relay_iff :
    (∀ x, t.narrow (relay us x) = t.narrow x) ↔ ∀ u ∈ us, t.width.bits ≤ u.width.bits := by
  constructor
  · intro h u hu
    refine Nat.le_of_not_lt fun hshort => ?_
    obtain ⟨x, hx, hne⟩ := exists_narrow_eq_zero hshort
    have hlost := h x
    rw [relay_eq_zero hu hx, narrow_zero] at hlost
    exact hne hlost.symm
  · exact fun h x => narrow_relay h x

theorem narrow_widen_narrow_iff :
    (∀ x, t.narrow (u.widen (u.narrow x)) = t.narrow x) ↔ t.width.bits ≤ u.width.bits := by
  have hone : (∀ x, t.narrow (relay [u] x) = t.narrow x) ↔
      ∀ u' ∈ [u], t.width.bits ≤ u'.width.bits := narrow_relay_iff
  simpa [relay] using hone

/-! ### All types -/

/-- How words carry the values of a type. -/
structure Carried (t : IntegerType) : Prop where
  /-- A value is read back from the word that it was written to. -/
  narrow_widen : ∀ v, t.narrow (t.widen v) = v
  /-- The word stands for the same number as the value, -/
  number : ∀ v, (t.widen v).toInt = t.toInt v
  /-- so words are ordered as their values are. -/
  monotone : ∀ v v', (t.widen v).toInt < (t.widen v').toInt ↔ t.toInt v < t.toInt v'
  /-- A word that is read and written out again is its own low bits with their sign, or its remainder, -/
  widen_narrow : ∀ x, (t.widen (t.narrow x)).toInt =
    if t.signed then (t.width.signExtend x).toInt else x.toInt % 2 ^ t.width.bits
  /-- where low bits with their sign are a remainder too, the one that is balanced around zero. -/
  signExtend : ∀ x, (t.width.signExtend x).toInt = x.toInt.bmod (2 ^ t.width.bits)
  /-- A reader sees the same of a word and of what another type made of it just where the other type is no
  shorter, -/
  slot : ∀ u : IntegerType,
    (∀ x, t.narrow (u.widen (u.narrow x)) = t.narrow x) ↔ t.width.bits ≤ u.width.bits
  /-- and so it is for any number of types that the word goes through. -/
  slots : ∀ us, (∀ x, t.narrow (relay us x) = t.narrow x) ↔ ∀ u ∈ us, t.width.bits ≤ u.width.bits

/-- **Integers in words.** For each of the seven types: values are read back and keep their order; reading a
word and writing it out again extends its low bits as the type says; and what a reader sees of a word stays
the same through slots that are no shorter than its own, whatever their signs, and through no others. -/
theorem carried (t : IntegerType) : t.Carried where
  narrow_widen := t.narrow_widen
  number := t.toInt_widen
  monotone v v' := by rw [toInt_widen, toInt_widen]
  widen_narrow := t.toInt_widen_narrow
  signExtend := t.width.toInt_signExtend
  slot _ := narrow_widen_narrow_iff
  slots _ := narrow_relay_iff

end IntegerType

end Trampoline
