import Mathlib.Data.List.Forall2
import Mathlib.Tactic.SplitIfs
import Trampoline.CallShape.Lemmas
import Trampoline.CallShape.Verdict
import Trampoline.Lists

/-!
# Eligible signatures

Which signatures get a stub, said by rules and not by the search for a call shape.

* `Slot.Travels`, `Slot.ComesBack`: how the value of a slot travels, and how a result comes back;
  `width?_eq_some_iff`, `Carrier.ofSlot?_eq_some_iff`, `Return.ofSlot?_eq_some_iff`: these are the rules
  that the search follows;
* `Signature.tally_eq`, `verdict_eq`: counting on the way comes to counting at the end;
* `Platform.SysV`, `Signature.Eligible`: what a signature needs to get a stub;
* `Signature.FirstFault`: the first thing that a signature lacks;
* `eligible_or_fault`, `verdict_of_eligible`, `verdict_of_fault`: every signature is eligible or lacks
  something, and its verdict says which;
* `Signature.Classified`, `classified`: what every verdict says.
-/

namespace Trampoline

/-! ### How values travel -/

/-- How the value of a slot travels. An integer that is marked wide fills a register; any other one has
the width of its type, which for a `long` is the size that it has on the platform, if that is a width. -/
inductive Slot.Travels (p : Platform) : Slot → Carrier → Prop
  | wide {type : ValueType} (h : type.isIntegral = true) : Travels p ⟨type, true⟩ (.int .w64)
  | i8 : Travels p ⟨.i8, false⟩ (.int .w8)
  | i16 : Travels p ⟨.i16, false⟩ (.int .w16)
  | i32 : Travels p ⟨.i32, false⟩ (.int .w32)
  | enum : Travels p ⟨.enum, false⟩ (.int .w32)
  | i64 : Travels p ⟨.i64, false⟩ (.int .w64)
  | long {w : Width} (h : p.longBits = w.bits) : Travels p ⟨.long, false⟩ (.int w)
  | f32 (wide : Bool) : Travels p ⟨.f32, wide⟩ .f32
  | f64 (wide : Bool) : Travels p ⟨.f64, wide⟩ .f64

/-- How the result of a slot comes back: not at all, or as its value travels. -/
inductive Slot.ComesBack (p : Platform) : Slot → Return → Prop
  | nothing (wide : Bool) : ComesBack p ⟨.void, wide⟩ .nothing
  | value {s : Slot} {c : Carrier} (h : s.Travels p c) : ComesBack p s (.value c)

section Slots

variable {p : Platform} {s : Slot}

theorem Slot.width?_eq_some_iff {w : Width} : s.width? p = some w ↔ s.Travels p (.int w) := by
  obtain ⟨type, wide⟩ := s
  constructor
  · cases wide with
    | true =>
      by_cases hint : type.isIntegral = true
      · simp only [width?, hint]
        rintro ⟨⟩
        exact .wide hint
      · cases type <;> simp_all [width?, ValueType.isIntegral]
    | false =>
      intro h
      cases type
      case long => exact .long (Width.ofBits?_eq_some_iff.1 h)
      all_goals cases h
      all_goals constructor
  · intro h
    cases h with
    | wide hint => simp [width?, hint]
    | long hbits => exact Width.ofBits?_eq_some_iff.2 hbits
    | _ => rfl

theorem Carrier.ofSlot?_eq_some_iff {c : Carrier} : Carrier.ofSlot? p s = some c ↔ s.Travels p c := by
  obtain ⟨type, wide⟩ := s
  constructor
  · intro h
    unfold ofSlot? at h
    split at h
    case h_1 w hw =>
      cases h
      exact Slot.width?_eq_some_iff.1 hw
    case h_2 =>
      cases type <;> cases h
      · exact .f32 wide
      · exact .f64 wide
  · intro h
    cases c with
    | int w => rw [ofSlot?, Slot.width?_eq_some_iff.2 h]
    | f32 => cases h; cases wide <;> rfl
    | f64 => cases h; cases wide <;> rfl

theorem Carrier.isSome_ofSlot?_iff : (Carrier.ofSlot? p s).isSome = true ↔ ∃ c, s.Travels p c := by
  simp only [Option.isSome_iff_exists, ofSlot?_eq_some_iff]

/-- Nothing travels that is void. -/
theorem Slot.Travels.type_ne_void {c : Carrier} (h : s.Travels p c) : s.type ≠ .void := by
  cases h with
  | @wide type hint =>
    rintro rfl
    cases hint
  | _ => simp

theorem Return.ofSlot?_eq_some_iff {ret : Return} :
    Return.ofSlot? p s = some ret ↔ s.ComesBack p ret := by
  by_cases hvoid : s.type = .void
  · have hnothing : Return.ofSlot? p s = some .nothing := if_pos hvoid
    obtain ⟨type, wide⟩ := s
    subst hvoid
    rw [hnothing]
    constructor
    · rintro ⟨⟩
      exact .nothing wide
    · rintro (_ | h)
      · rfl
      · exact absurd rfl h.type_ne_void
  · have hvalue : Return.ofSlot? p s = (Carrier.ofSlot? p s).map .value := if_neg hvoid
    rw [hvalue, Option.map_eq_some_iff]
    constructor
    · rintro ⟨c, hc, rfl⟩
      exact .value (Carrier.ofSlot?_eq_some_iff.1 hc)
    · rintro (_ | h)
      · exact absurd rfl hvoid
      · exact ⟨_, Carrier.ofSlot?_eq_some_iff.2 h, rfl⟩

theorem Slot.Travels.unique {c c' : Carrier} (h : s.Travels p c) (h' : s.Travels p c') : c = c' :=
  Option.some.inj ((Carrier.ofSlot?_eq_some_iff.2 h).symm.trans (Carrier.ofSlot?_eq_some_iff.2 h'))

theorem Slot.ComesBack.unique {ret ret' : Return} (h : s.ComesBack p ret) (h' : s.ComesBack p ret') :
    ret = ret' :=
  Option.some.inj ((Return.ofSlot?_eq_some_iff.2 h).symm.trans (Return.ofSlot?_eq_some_iff.2 h'))

/-- Integers are what has a width, -/
theorem Slot.isSome_width?_eq :
    (s.width? p).isSome = (Carrier.ofSlot? p s).any (·.bank == .integer) := by
  unfold Carrier.ofSlot?
  cases s.width? p with
  | some w => rfl
  | none => cases s.type <;> rfl

/-- and floats have one of two types. -/
theorem Slot.isFloat_eq : s.type.isFloat = (Carrier.ofSlot? p s).any (·.bank == .float) := by
  unfold Carrier.ofSlot?
  cases hw : s.width? p with
  | some w =>
    cases width?_eq_some_iff.1 hw with
    | @wide type hint => cases type <;> cases hint <;> rfl
    | _ => rfl
  | none => cases s.type <;> rfl

end Slots

/-! ### Counting on the way -/

namespace Signature

variable {p : Platform} {s : Signature}

theorem tally_eq (index : Nat) (v : Verdict) (slots : List Slot) :
    tally p index v slots = (carriersFrom p index slots).map fun cs =>
      ⟨v.args ++ cs, v.ret, v.integers + cs.countP (·.bank == .integer),
        v.floats + cs.countP (·.bank == .float)⟩ := by
  induction slots generalizing index v with
  | nil => simp [tally, carriersFrom, Except.map]
  | cons slot slots ih =>
    rw [tally, carriersFrom]
    cases Carrier.ofSlot? p slot with
    | none => rfl
    | some c =>
      simp only [ih]
      cases carriersFrom p (index + 1) slots with
      | error e => rfl
      | ok cs => cases hbank : c.bank <;> simp [Except.map, Verdict.add, hbank] <;> omega

/-- A verdict is a call shape with the counts of its arguments. -/
theorem verdict_eq (p : Platform) (s : Signature) :
    s.verdict p = (s.callShape p).map CallShape.verdict := by
  unfold verdict callShape
  split_ifs with hp hc
  · rfl
  · rfl
  · cases Return.ofSlot? p s.ret with
    | none => rfl
    | some ret =>
      simp only [tally_eq]
      cases carriersFrom p 0 s.params with
      | error e => rfl
      | ok cs =>
        simp only [Except.map, Verdict.start, CallShape.count, List.nil_append, Nat.zero_add]
        by_cases hints : SysV.maxIntegers < cs.countP (·.bank == .integer)
        · simp [hints]
        · by_cases hfloats : SysV.maxFloats < cs.countP (·.bank == .float) <;>
            simp [hints, hfloats, CallShape.verdict, CallShape.count]

end Signature

/-! ### What signatures need -/

/-- A 64-bit x86 platform with full-size addresses that is not Windows. -/
structure Platform.SysV (p : Platform) : Prop where
  cpu : p.cpu = .x86_64
  os : p.os ≠ .windows
  addressBits : p.addressBits = 64

theorem Platform.isSysV_iff {p : Platform} : p.isSysV = true ↔ p.SysV := by
  simp only [isSysV, Bool.and_eq_true, beq_iff_eq, bne_iff_ne]
  exact ⟨fun ⟨⟨hcpu, hos⟩, hbits⟩ => ⟨hcpu, hos, hbits⟩, fun h => ⟨⟨h.cpu, h.os⟩, h.addressBits⟩⟩

theorem Platform.SysV.not_isSysV {p : Platform} (hp : p.SysV) : (!p.isSysV) = false := by
  rw [isSysV_iff.2 hp]
  rfl

namespace Signature

variable {p : Platform} {s s' : Signature}

/-- How many parameters are integers. -/
def integers (p : Platform) (s : Signature) : Nat := s.params.countP fun slot => (slot.width? p).isSome

/-- How many parameters are floats. -/
def floats (s : Signature) : Nat := s.params.countP fun slot => slot.type.isFloat

/-- What a signature needs to get a stub. -/
structure Eligible (p : Platform) (s : Signature) : Prop where
  platform : p.SysV
  convention : s.convention = .default
  result : ∃ ret, s.ret.ComesBack p ret
  params : ∀ slot ∈ s.params, ∃ c, slot.Travels p c
  integers : s.integers p ≤ 6
  floats : s.floats ≤ 8

/-- The first thing that a signature lacks, in the order in which they are looked for. Numbers of
arguments are those of all parameters. -/
inductive FirstFault (p : Platform) (s : Signature) : Refusal → Prop
  | platform (h : ¬ p.SysV) : FirstFault p s (.platform p)
  | convention (hp : p.SysV) (h : s.convention ≠ .default) : FirstFault p s (.convention s.convention)
  | result (hp : p.SysV) (hc : s.convention = .default) (h : ¬ ∃ ret, s.ret.ComesBack p ret) :
    FirstFault p s (.result s.ret.type)
  | parameter (hp : p.SysV) (hc : s.convention = .default) (hr : ∃ ret, s.ret.ComesBack p ret)
    (front : List Slot) (slot : Slot) (back : List Slot) (hsplit : s.params = front ++ slot :: back)
    (hfront : ∀ slot ∈ front, ∃ c, slot.Travels p c) (h : ¬ ∃ c, slot.Travels p c) :
    FirstFault p s (.parameter front.length slot.type)
  | tooManyIntegers (hp : p.SysV) (hc : s.convention = .default) (hr : ∃ ret, s.ret.ComesBack p ret)
    (hparams : ∀ slot ∈ s.params, ∃ c, slot.Travels p c) (h : 6 < s.integers p) :
    FirstFault p s (.tooManyIntegers (s.integers p))
  | tooManyFloats (hp : p.SysV) (hc : s.convention = .default) (hr : ∃ ret, s.ret.ComesBack p ret)
    (hparams : ∀ slot ∈ s.params, ∃ c, slot.Travels p c) (hints : s.integers p ≤ 6)
    (h : 8 < s.floats) : FirstFault p s (.tooManyFloats s.floats)

/-- Every signature is eligible or lacks something. -/
theorem eligible_or_fault (p : Platform) (s : Signature) :
    s.Eligible p ∨ ∃ e, s.FirstFault p e := by
  by_cases hp : p.SysV
  case neg => exact .inr ⟨_, .platform hp⟩
  by_cases hc : s.convention = .default
  case neg => exact .inr ⟨_, .convention hp hc⟩
  by_cases hr : ∃ ret, s.ret.ComesBack p ret
  case neg => exact .inr ⟨_, .result hp hc hr⟩
  rcases find?_isNone_cases p s.params with ⟨-, hall⟩ | ⟨front, slot, -, hbare⟩
  · have hparams : ∀ slot ∈ s.params, ∃ c, slot.Travels p c := fun slot hslot =>
      Carrier.isSome_ofSlot?_iff.1 (hall slot hslot)
    by_cases hints : s.integers p ≤ 6
    case neg => exact .inr ⟨_, .tooManyIntegers hp hc hr hparams (Nat.lt_of_not_le hints)⟩
    by_cases hfloats : s.floats ≤ 8
    case neg => exact .inr ⟨_, .tooManyFloats hp hc hr hparams hints (Nat.lt_of_not_le hfloats)⟩
    exact .inl ⟨hp, hc, hr, hparams, hints, hfloats⟩
  · obtain ⟨back, hsplit⟩ := hbare.split
    have hfront : ∀ slot ∈ front, ∃ c, slot.Travels p c := fun slot hslot =>
      Carrier.isSome_ofSlot?_iff.1 (hbare.front slot hslot)
    have hslot : ¬ ∃ c, slot.Travels p c := by
      rw [← Carrier.isSome_ofSlot?_iff, hbare.bare]
      exact Bool.false_ne_true
    exact .inr ⟨_, .parameter hp hc hr front slot back hsplit hfront hslot⟩

/-! ### What verdicts say -/

/-- Behind the platform, the convention and the result, the verdict is that on the parameters. -/
theorem verdict_of_result {ret : Return} (hp : p.SysV) (hc : s.convention = .default)
    (hret : s.ret.ComesBack p ret) :
    s.verdict p =
      match tally p 0 (.start ret) s.params with
      | .error r => .error r
      | .ok v =>
        if 6 < v.integers then .error (.tooManyIntegers v.integers)
        else if 8 < v.floats then .error (.tooManyFloats v.floats)
        else .ok v := by
  simp only [verdict, hp.not_isSysV, hc, Return.ofSlot?_eq_some_iff.2 hret]
  rfl

/-- Where every parameter travels, the verdict lists and counts them. -/
theorem tally_of_travels (hparams : ∀ slot ∈ s.params, ∃ c, slot.Travels p c) (ret : Return) :
    ∃ args, List.Forall₂ (Slot.Travels p) s.params args ∧
      tally p 0 (.start ret) s.params = .ok ⟨args, ret, s.integers p, s.floats⟩ := by
  have hall : ∀ slot ∈ s.params, (Carrier.ofSlot? p slot).isSome = true := fun slot hslot =>
    Carrier.isSome_ofSlot?_iff.2 (hparams slot hslot)
  refine ⟨s.params.filterMap (Carrier.ofSlot? p), ?_, ?_⟩
  · exact (forall₂_filterMap hall).imp fun _ _ hc => Carrier.ofSlot?_eq_some_iff.1 hc
  · have hcount (b : Bank) := CallShape.count_filterMap p b s.params ret
    simp only [CallShape.count] at hcount
    rw [tally_eq, carriersFrom_eq_ok 0 hall]
    simp only [Except.map, Verdict.start, List.nil_append, Nat.zero_add, hcount, integers, floats,
      Slot.isSome_width?_eq, Slot.isFloat_eq (p := p)]

theorem verdict_of_fault {e : Refusal} (h : s.FirstFault p e) : s.verdict p = .error e := by
  cases h with
  | platform h =>
    have hnot : (!p.isSysV) = true := by simpa [← Platform.isSysV_iff] using h
    exact if_pos hnot
  | convention hp h =>
    simp [verdict, hp.not_isSysV, h]
  | result hp hc h =>
    have hnone : Return.ofSlot? p s.ret = none := by
      simpa [Option.eq_none_iff_forall_ne_some, Return.ofSlot?_eq_some_iff] using h
    simp [verdict, hp.not_isSysV, hc, hnone]
  | parameter hp hc hr front slot back hsplit hfront h =>
    obtain ⟨ret, hret⟩ := hr
    have hbefore : ∀ slot ∈ front, (Carrier.ofSlot? p slot).isSome = true := fun slot hslot =>
      Carrier.isSome_ofSlot?_iff.2 (hfront slot hslot)
    have hnone : Carrier.ofSlot? p slot = none := by
      simpa [Option.eq_none_iff_forall_ne_some, Carrier.ofSlot?_eq_some_iff] using h
    rw [verdict_of_result hp hc hret, tally_eq, hsplit, carriersFrom_eq_error 0 back hbefore hnone,
      Nat.zero_add]
    rfl
  | tooManyIntegers hp hc hr hparams h =>
    obtain ⟨ret, hret⟩ := hr
    obtain ⟨args, -, htally⟩ := tally_of_travels hparams ret
    simp [verdict_of_result hp hc hret, htally, h]
  | tooManyFloats hp hc hr hparams hints h =>
    obtain ⟨ret, hret⟩ := hr
    obtain ⟨args, -, htally⟩ := tally_of_travels hparams ret
    simp [verdict_of_result hp hc hret, htally, h, Nat.not_lt.2 hints]

theorem verdict_of_eligible (h : s.Eligible p) : ∃ args ret,
    List.Forall₂ (Slot.Travels p) s.params args ∧ s.ret.ComesBack p ret ∧
      s.verdict p = .ok ⟨args, ret, s.integers p, s.floats⟩ := by
  obtain ⟨ret, hret⟩ := h.result
  obtain ⟨args, hargs, htally⟩ := tally_of_travels h.params ret
  refine ⟨args, ret, hargs, hret, ?_⟩
  simp [verdict_of_result h.platform h.convention hret, htally, Nat.not_lt.2 h.integers,
    Nat.not_lt.2 h.floats]

/-- The counts of a verdict are those of its own list. -/
theorem counts_of_verdict {v : Verdict} (h : s.verdict p = .ok v) :
    v.integers = v.args.countP (·.bank == .integer) ∧ v.floats = v.args.countP (·.bank == .float) := by
  rw [verdict_eq] at h
  cases hshape : s.callShape p with
  | error e =>
    rw [hshape] at h
    cases h
  | ok shape =>
    rw [hshape] at h
    cases h
    exact ⟨rfl, rfl⟩

/-- Every argument is in one of the two banks. -/
theorem countP_bank_add (args : List Carrier) :
    args.countP (·.bank == .integer) + args.countP (·.bank == .float) = args.length := by
  rw [List.length_eq_countP_add_countP (·.bank == .integer)]
  congr 2
  funext c
  cases c <;> rfl

theorem Eligible.of_perm (h : s.Eligible p) (hparams : s'.params.Perm s.params) (hret : s'.ret = s.ret)
    (hconvention : s'.convention = s.convention) : s'.Eligible p where
  platform := h.platform
  convention := hconvention.trans h.convention
  result := hret ▸ h.result
  params slot hslot := h.params slot (hparams.mem_iff.1 hslot)
  integers := by rw [Signature.integers, hparams.countP_eq]; exact h.integers
  floats := by rw [Signature.floats, hparams.countP_eq]; exact h.floats

/-- What every verdict on a signature says. -/
structure Classified (p : Platform) (s : Signature) : Prop where
  /-- Counting on the way or at the end, there is one verdict. -/
  same : s.verdict p = (s.callShape p).map CallShape.verdict
  /-- Eligible signatures have one, and no others. -/
  eligible : (∃ v, s.verdict p = .ok v) ↔ s.Eligible p
  /-- It lists how the parameters travel, in their order, and how the result comes back, with the number
  of arguments in each bank, -/
  ok : ∀ v, s.verdict p = .ok v ↔ s.Eligible p ∧ List.Forall₂ (Slot.Travels p) s.params v.args ∧
    s.ret.ComesBack p v.ret ∧ v.integers = v.args.countP (·.bank == .integer) ∧
    v.floats = v.args.countP (·.bank == .float)
  /-- of which each is in one or the other. -/
  counts : ∀ v, s.verdict p = .ok v → v.integers + v.floats = v.args.length
  /-- Any other signature is refused for the first thing that it lacks. -/
  error : ∀ e, s.verdict p = .error e ↔ s.FirstFault p e
  /-- The order of the parameters decides nothing but the order of the list. -/
  permuted : ∀ s' : Signature, s'.params.Perm s.params → s'.ret = s.ret →
    s'.convention = s.convention → ((∃ v, s'.verdict p = .ok v) ↔ ∃ v, s.verdict p = .ok v)

theorem verdict_isOk_iff : (∃ v, s.verdict p = .ok v) ↔ s.Eligible p := by
  constructor
  · rintro ⟨v, hv⟩
    rcases eligible_or_fault p s with h | ⟨e, he⟩
    · exact h
    · cases hv.symm.trans (verdict_of_fault he)
  · intro h
    obtain ⟨args, ret, -, -, hv⟩ := verdict_of_eligible h
    exact ⟨_, hv⟩

theorem verdict_eq_error_iff {e : Refusal} : s.verdict p = .error e ↔ s.FirstFault p e := by
  refine ⟨fun he => ?_, verdict_of_fault⟩
  rcases eligible_or_fault p s with h | ⟨e', he'⟩
  · obtain ⟨v, hv⟩ := verdict_isOk_iff.2 h
    cases hv.symm.trans he
  · cases (verdict_of_fault he').symm.trans he
    exact he'

theorem verdict_eq_ok_iff {v : Verdict} : s.verdict p = .ok v ↔ s.Eligible p ∧
    List.Forall₂ (Slot.Travels p) s.params v.args ∧ s.ret.ComesBack p v.ret ∧
      v.integers = v.args.countP (·.bank == .integer) ∧ v.floats = v.args.countP (·.bank == .float) := by
  constructor
  · intro hv
    have h := verdict_isOk_iff.1 ⟨v, hv⟩
    obtain ⟨args, ret, hargs, hret, hv'⟩ := verdict_of_eligible h
    have hcounts := counts_of_verdict hv
    cases hv'.symm.trans hv
    exact ⟨h, hargs, hret, hcounts⟩
  · rintro ⟨h, hargs, hret, hintegers, hfloats⟩
    obtain ⟨args, ret, hargs', hret', hv⟩ := verdict_of_eligible h
    obtain ⟨hintegers', hfloats'⟩ := counts_of_verdict hv
    have hsame : args = v.args :=
      List.right_unique_forall₂' (fun _ _ _ h h' => h.unique h') hargs' hargs
    subst hsame
    have hints : s.integers p = v.integers := hintegers'.trans hintegers.symm
    have hfls : s.floats = v.floats := hfloats'.trans hfloats.symm
    rw [hv, hints, hfls, hret'.unique hret]

/-- **Classification by rules.** Every signature with any number of parameters has, on every platform, the
verdict that the rules say: how its values travel, if it is eligible, and else the first thing that it
lacks. -/
theorem classified (p : Platform) (s : Signature) : s.Classified p where
  same := verdict_eq p s
  eligible := verdict_isOk_iff
  ok _ := verdict_eq_ok_iff
  counts v hv := by
    obtain ⟨hintegers, hfloats⟩ := counts_of_verdict hv
    rw [hintegers, hfloats, countP_bank_add]
  error _ := verdict_eq_error_iff
  permuted s' hparams hret hconvention := by
    rw [verdict_isOk_iff, verdict_isOk_iff]
    exact ⟨fun h => h.of_perm hparams.symm hret.symm hconvention.symm,
      fun h => h.of_perm hparams hret hconvention⟩

/-- A bad parameter comes before a seventh integer, whichever stands first. -/
example : (Signature.mk (List.replicate 7 ⟨.i32, false⟩ ++ [⟨.struct, false⟩]) ⟨.void, false⟩
    .default).verdict .host = .error (.parameter 7 .struct) := by rfl

end Signature

end Trampoline
