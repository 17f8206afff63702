import Mathlib.Data.List.Forall2
import Mathlib.Tactic.SplitIfs
import Mathlib.Tactic.TFAE
import Trampoline.CallShape.Descriptor
import Trampoline.Proofs.Attachment
import Trampoline.Proofs.Eligibility

/-!
# Descriptors name call shapes

A descriptor is written from a signature on a platform, but what it says is how the values travel.

* `Carrier.ofLetter?_eq_some_iff`, `Return.ofLetter?_eq_some_iff`, `CallShape.ofDescriptor?_eq_some_iff`: a
  text is read as the shape that it was written from, and no other text is;
* `Slot.Travels.letter_eq`, `Slot.ComesBack.letter_eq`, `Signature.descriptor_eq`: signature and shape are
  written alike;
* `Spelled`, `Signature.spelled_descriptor`, `isDescriptor_descriptor`: what every descriptor looks like;
* `Signature.descriptor_faithful`: equal descriptors are equal verdicts.
-/

namespace Trampoline

/-! ### Reading what was written -/

theorem Carrier.ofLetter?_eq_some_iff {letter : Char} {c : Carrier} :
    ofLetter? letter = some c ↔ letter = c.letter := by
  constructor
  · intro h
    unfold ofLetter? at h
    split at h <;> cases h <;> rfl
  · rintro rfl
    rcases c with w | - | -
    · cases w <;> rfl
    all_goals rfl

theorem Carrier.letter_mem (c : Carrier) : c.letter ∈ ['B', 'S', 'I', 'J', 'F', 'D'] := by
  rcases c with w | - | -
  · cases w <;> decide
  all_goals decide

theorem Return.ofLetter?_eq_some_iff {letter : Char} {ret : Return} :
    ofLetter? letter = some ret ↔ letter = ret.letter := by
  unfold ofLetter?
  split_ifs with hvoid
  · subst hvoid
    cases ret with
    | nothing => simp [Return.letter]
    | value c => simpa [Return.letter] using (ne_of_mem_of_not_mem c.letter_mem (by decide)).symm
  · rw [Option.map_eq_some_iff]
    cases ret with
    | nothing => simpa [Return.letter] using hvoid
    | value c => simp [Return.letter, Carrier.ofLetter?_eq_some_iff]

theorem Return.ofLetters?_eq_some_iff {letters : List Char} {ret : Return} :
    ofLetters? letters = some ret ↔ letters = [ret.letter] := by
  rcases letters with - | ⟨letter, - | ⟨more, rest⟩⟩
  · simp [ofLetters?]
  · simp [ofLetters?, ofLetter?_eq_some_iff]
  · simp [ofLetters?]

namespace CallShape

theorem lettersFrom_cons (c : Carrier) (args : List Carrier) (ret : Return) :
    lettersFrom ⟨c :: args, ret⟩ = c.letter :: lettersFrom ⟨args, ret⟩ := rfl

theorem readFrom?_lettersFrom (args : List Carrier) (ret : Return) :
    readFrom? (lettersFrom ⟨args, ret⟩) = some ⟨args, ret⟩ := by
  induction args with
  | nil =>
    have hret := Return.ofLetters?_eq_some_iff.2 (Eq.refl [ret.letter])
    simp [lettersFrom, readFrom?, hret]
  | cons c args ih =>
    have hc := Carrier.ofLetter?_eq_some_iff.2 (Eq.refl c.letter)
    have hopen : c.letter ≠ ')' := ne_of_mem_of_not_mem c.letter_mem (by decide)
    rw [lettersFrom_cons, readFrom?, if_neg hopen, hc, ih]

/-- Only the letters of a shape are read as the shape: what stands before the first closing parenthesis are
arguments, and one letter behind it is the result. -/
theorem eq_lettersFrom_of_readFrom? {letters : List Char} {s : CallShape}
    (h : readFrom? letters = some s) : letters = s.lettersFrom := by
  fun_induction readFrom? letters generalizing s with
  | case1 => cases h
  | case2 rest =>
    obtain ⟨ret, hret, rfl⟩ := Option.map_eq_some_iff.1 h
    rw [Return.ofLetters?_eq_some_iff.1 hret]
    rfl
  | case3 letter rest hclose c s' hs' hc ih =>
    cases h
    rw [lettersFrom_cons, ← Carrier.ofLetter?_eq_some_iff.1 hc, ih hs']
  | case4 => cases h

/-- A text is read as a call shape just where it is the descriptor of the shape. -/
theorem ofDescriptor?_eq_some_iff {text : String} {s : CallShape} :
    ofDescriptor? text = some s ↔ text = s.descriptor := by
  rw [descriptor, ← String.toList_inj, String.toList_ofList]
  unfold ofDescriptor?
  split
  case h_1 rest htext =>
    rw [htext, List.cons.injEq, and_iff_right rfl]
    exact ⟨eq_lettersFrom_of_readFrom?, fun hrest => hrest ▸ readFrom?_lettersFrom s.args s.ret⟩
  case h_2 hnot =>
    simp only [reduceCtorEq, false_iff]
    exact fun htext => hnot _ htext

end CallShape

/-! ### Signatures and shapes are written alike -/

section Letters

variable {p : Platform} {slot : Slot}

theorem Slot.Travels.letter_eq {c : Carrier} (h : slot.Travels p c) : slot.letter p = c.letter := by
  cases c with
  | int w =>
    rw [Slot.letter, Slot.width?_eq_some_iff.2 h]
    cases w <;> rfl
  | f32 => cases h with | f32 wide => cases wide <;> rfl
  | f64 => cases h with | f64 wide => cases wide <;> rfl

theorem Slot.ComesBack.letter_eq {ret : Return} (h : slot.ComesBack p ret) :
    slot.letter p = ret.letter := by
  cases h with
  | nothing wide => cases wide <;> rfl
  | value h => exact h.letter_eq

end Letters

/-! ### What every descriptor looks like -/

/-- A text that gives a letter to each of some parameters, in parentheses, and one letter to a result. -/
def Spelled (params : Nat) (text : String) : Prop :=
  ∃ letters last, text.toList = '(' :: (letters ++ [')', last]) ∧ letters.length = params ∧
    ∀ letter ∈ last :: letters, letter.isUpper = true

theorem Signature.spelled_descriptor (p : Platform) (s : Signature) :
    Spelled s.params.length (s.descriptor p) := by
  refine ⟨s.params.map (Slot.letter p), s.ret.letter p, ?_, List.length_map _, ?_⟩
  · simp [descriptor, descriptorChars]
  · intro letter hletter
    rw [← List.map_cons (f := Slot.letter p)] at hletter
    obtain ⟨slot, -, rfl⟩ := List.mem_map.1 hletter
    exact slot.isUpper_letter p

theorem Signature.isDescriptor_descriptor (p : Platform) (s : Signature) :
    isDescriptor (s.descriptor p) = true := by
  rw [isDescriptor_iff, head?_descriptor, getLast?_descriptor]
  exact ⟨rfl, s.mem_descriptor p, fun h => s.ret.letter_ne_parenthesis p (Option.some.inj h)⟩

/-! ### Equal descriptors -/

namespace Signature

variable {p : Platform} {s : Signature}

theorem descriptor_eq {v : Verdict} (hv : s.verdict p = .ok v) :
    s.descriptor p = (CallShape.mk v.args v.ret).descriptor := by
  obtain ⟨-, hargs, hret, -⟩ := verdict_eq_ok_iff.1 hv
  have hletters : v.args.map Carrier.letter = s.params.map (Slot.letter p) :=
    map_eq_of_forall₂ hargs fun _ _ h => h.letter_eq.symm
  rw [descriptor, descriptorChars, CallShape.descriptor, CallShape.lettersFrom, hletters,
    hret.letter_eq, List.cons_append]

/-- What a descriptor says on one platform. -/
structure Described (p : Platform) (s : Signature) : Prop where
  /-- It has a letter for each parameter and one for the result, -/
  spelled : Spelled s.params.length (s.descriptor p)
  /-- and a dispatch table takes it. -/
  accepted : isDescriptor (s.descriptor p) = true
  /-- The verdict can be read from the text alone. -/
  read : ∀ v, s.verdict p = .ok v → Verdict.ofDescriptor? (s.descriptor p) = some v

theorem described (p : Platform) (s : Signature) : s.Described p where
  spelled := spelled_descriptor p s
  accepted := isDescriptor_descriptor p s
  read v hv := by
    obtain ⟨hintegers, hfloats⟩ := counts_of_verdict hv
    rw [Verdict.ofDescriptor?, CallShape.ofDescriptor?_eq_some_iff.2 (descriptor_eq hv), Option.map_some,
      CallShape.verdict, CallShape.count, CallShape.count, ← hintegers, ← hfloats]

/-- **Descriptors are names of verdicts.** Two signatures that get stubs, each on its own platform, have one
descriptor just where they have one verdict, that is, where the values travel alike and the results come
back alike; and any descriptor at all can be published. -/
theorem descriptor_faithful :
    (∀ (p : Platform) (s : Signature), s.Described p) ∧
    ∀ (p p' : Platform) (s s' : Signature) (v v' : Verdict),
      s.verdict p = .ok v → s'.verdict p' = .ok v' →
        [s.descriptor p = s'.descriptor p', v = v', v.args = v'.args ∧ v.ret = v'.ret].TFAE := by
  refine ⟨described, fun p p' s s' v v' hv hv' => ?_⟩
  tfae_have 1 → 2 := fun hsame =>
    Option.some.inj (((described p s).read v hv).symm.trans (hsame ▸ (described p' s').read v' hv'))
  tfae_have 2 → 3 := fun hsame => hsame ▸ ⟨rfl, rfl⟩
  tfae_have 3 → 1 := by
    rintro ⟨hargs, hret⟩
    rw [descriptor_eq hv, descriptor_eq hv', hargs, hret]
  tfae_finish

/-- A `long` of 64 bits and a wide byte are one argument, also where a `long` is shorter. -/
theorem descriptor_of_long_and_wide :
    let lp64 : Platform := ⟨.x86_64, .linux, 64, 64⟩
    let long32 : Platform := ⟨.x86_64, .linux, 64, 32⟩
    let ofLong : Signature := ⟨[⟨.long, false⟩, ⟨.f32, false⟩], ⟨.void, false⟩, .default⟩
    let ofWide : Signature := ⟨[⟨.i8, true⟩, ⟨.f32, true⟩], ⟨.void, true⟩, .default⟩
    let v : Verdict := ⟨[.int .w64, .f32], .nothing, 1, 1⟩
    ofLong.verdict lp64 = .ok v ∧ ofWide.verdict long32 = .ok v ∧
      ofLong.descriptor lp64 = ofWide.descriptor long32 :=
  ⟨rfl, rfl, ((descriptor_faithful.2 _ _ _ _ _ _ rfl rfl).out 0 1).2 rfl⟩

end Signature

end Trampoline
