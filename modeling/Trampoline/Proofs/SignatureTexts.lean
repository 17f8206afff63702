import Trampoline.Lists
import Trampoline.Signature

/-!
# What the text of a signature tells

The text of a signature is for people; it need not be read again. Still it can be: no name of a type begins
another, so a text has one list of parameters and one result. But the text of the result is its type alone,
and whether the result is wide changes the descriptor.

* `ValueType.isPrefixCode_name`, `Slot.isPrefixCode_text`: names of types and texts of slots are told apart;
* `Signature.text_eq_iff`: equal texts are equal parameters and equal types of the result;
* `Slot.letter_eq_iff`: on which platforms the wide mark of a slot changes its letter;
* `Signature.SameSlots`, `Signature.text_tells`: what follows from equal texts, and what does not.
-/

namespace Trampoline

/-! ### Names of types and texts of slots -/

theorem ValueType.isPrefixCode_name : IsPrefixCode fun t : ValueType => t.name.toList := by
  intro t t'
  cases t <;> cases t' <;> decide

namespace Slot

/-- No slot's text begins another: the wide mark is no beginning of a name. -/
theorem isPrefixCode_text : IsPrefixCode fun s : Slot => s.text.toList := by
  rintro ⟨type, wide⟩ ⟨type', wide'⟩ h
  cases wide <;> cases wide' <;>
    simp only [text, if_true, Bool.false_eq_true, if_false, String.toList_append] at h
  · rw [ValueType.isPrefixCode_name _ _ h]
  · cases type <;> simp [ValueType.name] at h
  · cases type' <;> simp [ValueType.name] at h
  · rw [ValueType.isPrefixCode_name _ _ ((List.prefix_append_right_inj _).1 h)]

theorem text_append_ne (s : Slot) (rest rest' : List Char) :
    s.text.toList ++ rest ≠ ") -> ".toList ++ rest' := by
  obtain ⟨type, wide⟩ := s
  cases wide <;> cases type <;> simp [text, ValueType.name]

/-- The wide mark changes the letter of an integer that does not fill a word without it. -/
theorem letter_wide_eq_iff (p : Platform) (type : ValueType) :
    letter p ⟨type, true⟩ = letter p ⟨type, false⟩ ↔
      type.isIntegral = false ∨ width? p ⟨type, false⟩ = some .w64 := by
  cases hint : type.isIntegral with
  | false =>
    have hsame : width? p ⟨type, true⟩ = width? p ⟨type, false⟩ := by simp [width?, hint]
    simp only [letter, hsame, true_or]
  | true =>
    have hwide : letter p ⟨type, true⟩ = 'J' := by simp [letter, width?, hint]
    rw [hwide, letter]
    cases hwidth : width? p ⟨type, false⟩ with
    | some w => cases w <;> simp
    | none => cases type <;> simp_all [ValueType.isIntegral]

theorem letter_eq_iff (p : Platform) (type : ValueType) (wide wide' : Bool) :
    letter p ⟨type, wide⟩ = letter p ⟨type, wide'⟩ ↔
      wide = wide' ∨ type.isIntegral = false ∨ width? p ⟨type, false⟩ = some .w64 := by
  rw [← letter_wide_eq_iff]
  cases wide <;> cases wide'
  · simp
  · simp only [Bool.false_eq_true, false_or, eq_comm]
  · simp
  · simp

end Slot

/-! ### Texts of signatures -/

namespace Signature

variable {s s' : Signature} {p : Platform}

theorem toList_text (s : Signature) : s.text.toList = '(' ::
    (", ".toList.intercalate (s.params.map fun slot => slot.text.toList) ++
      (") -> ".toList ++ s.ret.type.name.toList)) := by
  simp [text, Function.comp_def]

theorem text_eq_iff : s.text = s'.text ↔ s.params = s'.params ∧ s.ret.type = s'.ret.type := by
  constructor
  · intro h
    rw [← String.toList_inj, toList_text, toList_text, List.cons.injEq, and_iff_right rfl] at h
    obtain ⟨hparams, hname⟩ :=
      Slot.isPrefixCode_text.intercalate_inj (by simp) Slot.text_append_ne h
    exact ⟨hparams, ValueType.isPrefixCode_name.injective hname⟩
  · rintro ⟨hparams, htype⟩
    rw [text, text, hparams, htype]

theorem descriptor_eq_iff_of_params (h : s.params = s'.params) :
    s.descriptor p = s'.descriptor p ↔ s.ret.letter p = s'.ret.letter p := by
  simp [descriptor, descriptorChars, h]

/-- Two signatures with the same slots, which therefore have one descriptor wherever they are called. -/
structure SameSlots (s s' : Signature) : Prop where
  params : s.params = s'.params
  ret : s.ret = s'.ret
  descriptor : ∀ p, s.descriptor p = s'.descriptor p

theorem sameSlots_iff : s.SameSlots s' ↔ s.params = s'.params ∧ s.ret = s'.ret := by
  constructor
  · exact fun h => ⟨h.params, h.ret⟩
  · rintro ⟨hparams, hret⟩
    exact ⟨hparams, hret, fun p => (descriptor_eq_iff_of_params hparams).2 (by rw [hret])⟩

/-- **What the text of a signature tells.** Two signatures have one text just where they have the same
parameters, with their wide marks, and results of one type. Of the slots only the wide mark of the result is
not in the text; where it differs, the descriptors are equal on a platform just where the result is no
integer, or one that fills a word there anyway. -/
theorem text_tells (s s' : Signature) :
    (s.text = s'.text ↔ s.params = s'.params ∧ s.ret.type = s'.ret.type) ∧
    (s.SameSlots s' ↔ s.text = s'.text ∧ s.ret.wide = s'.ret.wide) ∧
    (s.text = s'.text → ∀ p, s.descriptor p = s'.descriptor p ↔
      s.ret.wide = s'.ret.wide ∨ s.ret.type.isIntegral = false ∨
        Slot.width? p ⟨s.ret.type, false⟩ = some .w64) := by
  obtain ⟨params, ⟨type, wide⟩, convention⟩ := s
  obtain ⟨params', ⟨type', wide'⟩, convention'⟩ := s'
  refine ⟨text_eq_iff, ?_, fun h p => ?_⟩
  · rw [sameSlots_iff, text_eq_iff, Slot.mk.injEq, and_assoc]
  · obtain ⟨hparams, rfl⟩ := text_eq_iff.1 h
    rw [descriptor_eq_iff_of_params hparams, Slot.letter_eq_iff]

/-- Where a `long` has 64 bits a wide one is the same result, and where it is shorter it is not. -/
theorem text_tells_of_long :
    let plain : Signature := ⟨[⟨.i8, false⟩, ⟨.long, true⟩], ⟨.long, false⟩, .default⟩
    let wide : Signature := ⟨[⟨.i8, false⟩, ⟨.long, true⟩], ⟨.long, true⟩, .stdCall⟩
    plain.text = wide.text ∧
      plain.descriptor ⟨.x86_64, .linux, 64, 64⟩ = wide.descriptor ⟨.x86_64, .linux, 64, 64⟩ ∧
      plain.descriptor ⟨.x86_64, .windows, 64, 32⟩ ≠ wide.descriptor ⟨.x86_64, .windows, 64, 32⟩ := by
  intro plain wide
  obtain ⟨htext, -, hdescriptor⟩ := text_tells plain wide
  have hsame : plain.text = wide.text := htext.2 ⟨rfl, rfl⟩
  refine ⟨hsame, (hdescriptor hsame _).2 (.inr (.inr rfl)), fun h => ?_⟩
  exact absurd ((hdescriptor hsame _).1 h) (by decide)

/-- The text of a function that gives a byte does not say whether the byte is wide, but its descriptor
does. -/
theorem text_of_wide_result :
    let plain : Signature := ⟨[], ⟨.i8, false⟩, .default⟩
    let wide : Signature := ⟨[], ⟨.i8, true⟩, .default⟩
    plain.text = "() -> i8" ∧ wide.text = "() -> i8" ∧ plain.ret ≠ wide.ret ∧
      plain.descriptor .host = "()B" ∧ wide.descriptor .host = "()J" := by
  decide

end Signature

end Trampoline
