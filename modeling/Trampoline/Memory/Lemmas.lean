import Mathlib.Tactic.ByContra
import Trampoline.Memory
import Trampoline.Scalar.Lemmas

/-!
# Accesses to memory

* `read?_eq_slice?`, `write?_eq_some_iff`: a range is tested in words, and the test is exact;
* `Memory.Fits`, `Memory.Fault`, `fits_or_fault`: where an access can be made, and what is wrong where it
  cannot;
* `get_eq_ok_iff`, `put_eq_ok_iff`, `get_of_fault`, `put_of_fault`: what the two accesses come to;
* `ok_iff_fits`, `fault_of_error`: an access succeeds where it can be made and nowhere else, and fails for
  what is wrong with it;
* `ne_unsupported_iff`: an access is refused for the size of the value where the platform has none such;
* `Memory.Kept`, `kept_put`, `kept_step`, `kept_run`: the bytes that one access, or a sequence of them,
  leaves alone.
-/

namespace Trampoline

namespace Memory

variable {m m' : Memory} {s : Scalar} {offset : Nat}

/-! ### Ranges -/

theorem stop?_of_le {size : Nat} (h : offset + size ≤ m.size) : m.stop? offset size = some (offset + size) :=
  stop?_eq_some_iff.2 ⟨rfl, h⟩

theorem stop?_of_lt {size : Nat} (h : m.size < offset + size) : m.stop? offset size = none := by
  rw [Option.eq_none_iff_forall_ne_some]
  intro stop hstop
  obtain ⟨rfl, hle⟩ := stop?_eq_some_iff.1 hstop
  exact absurd hle (Nat.not_le.2 h)

theorem read?_eq_slice? (m : Memory) (offset size : Nat) :
    m.read? offset size = Bytes.slice? m.bytes offset size := by
  rcases Nat.lt_or_ge m.size (offset + size) with h | h
  · rw [read?, stop?_of_lt h]
    exact (if_neg (Nat.not_le.2 h)).symm
  · rw [read?, stop?_of_le h, Option.map_some, List.drop_take, Nat.add_sub_cancel_left]
    exact (if_pos h).symm

theorem write?_eq_some_iff {new : Bytes} : m.write? offset new = some m' ↔
    m'.platform = m.platform ∧ Bytes.splice? m.bytes offset new = some m'.bytes := by
  rw [Bytes.splice?_eq_some_iff]
  unfold write?
  split
  case h_1 hstop =>
    refine ⟨nofun, fun h => ?_⟩
    cases hstop.symm.trans (stop?_of_le h.2.1)
  case h_2 stop hstop =>
    -- The end that was found is the exact one, so both cut the buffer at the same place.
    obtain ⟨rfl, hle⟩ := stop?_eq_some_iff.1 hstop
    constructor
    · intro h
      cases h
      exact ⟨rfl, hle, rfl⟩
    · rintro ⟨hplatform, -, hbytes⟩
      exact congrArg some (Memory.ext hplatform.symm hbytes)

theorem write?_of_lt {new : Bytes} (h : m.size < offset + new.length) : m.write? offset new = none := by
  rw [Option.eq_none_iff_forall_ne_some]
  intro m' hwrite
  have hle := (Bytes.splice?_eq_some_iff.1 (write?_eq_some_iff.1 hwrite).2).1
  exact absurd hle (Nat.not_le.2 h)

/-! ### Single accesses -/

/-- A value has a field at an offset: the platform has values of its kind, and all the bytes of the field
lie in the buffer. -/
structure Fits (m : Memory) (s : Scalar) (offset : Nat) : Prop where
  supported : s.Supported m.platform
  inside : offset + s.size m.platform ≤ m.size

/-- What is wrong with an access at an offset. Whether the platform has the kind of value comes first,
wherever the access goes. -/
inductive Fault (m : Memory) (s : Scalar) (offset : Nat) : MarshalError → Prop
  | unsupported (h : ¬ s.Supported m.platform) :
    Fault m s offset (.unsupportedWidth (s.storedBits m.platform))
  | outside (hs : s.Supported m.platform) (h : m.size < offset + s.size m.platform) :
    Fault m s offset (.outOfBounds offset (s.size m.platform) m.size)

theorem fits_or_fault (m : Memory) (s : Scalar) (offset : Nat) :
    m.Fits s offset ∨ ∃ e, m.Fault s offset e := by
  by_cases hs : s.Supported m.platform
  · rcases Nat.lt_or_ge m.size (offset + s.size m.platform) with h | h
    · exact .inr ⟨_, .outside hs h⟩
    · exact .inl ⟨hs, h⟩
  · exact .inr ⟨_, .unsupported hs⟩

/-- Reading succeeds where there is a field, and gives the value in it. -/
theorem get_eq_ok_iff {v : s.Value} : m.get s offset = .ok v ↔ s.Supported m.platform ∧
    ∃ field, Bytes.slice? m.bytes offset (s.size m.platform) = some field ∧ s.ofBytes field = v := by
  by_cases hs : s.Supported m.platform
  · rw [get, Scalar.fieldSize_of_supported hs]
    simp only [read?_eq_slice?]
    cases Bytes.slice? m.bytes offset (s.size m.platform) <;> simp [hs]
  · rw [get, Scalar.fieldSize_of_not_supported hs]
    simp [hs]

/-- Writing succeeds where the field can be overwritten, and overwrites it. -/
theorem put_eq_ok_iff {v : s.Value} : m.put s offset v = (m', .ok ()) ↔ s.Supported m.platform ∧
    m'.platform = m.platform ∧
      Bytes.splice? m.bytes offset (s.toBytes (s.size m.platform) v) = some m'.bytes := by
  by_cases hs : s.Supported m.platform
  · rw [← write?_eq_some_iff, put, Scalar.fieldSize_of_supported hs]
    cases hwrite : m.write? offset (s.toBytes (s.size m.platform) v) <;> simp [hs, hwrite]
  · rw [put, Scalar.fieldSize_of_not_supported hs]
    simp [hs]

theorem get_of_fits (h : m.Fits s offset) : ∃ v, m.get s offset = .ok v :=
  ⟨_, get_eq_ok_iff.2 ⟨h.supported, _, Bytes.slice?_eq_some_iff.2 ⟨h.inside, rfl⟩, rfl⟩⟩

theorem put_of_fits (h : m.Fits s offset) (v : s.Value) : ∃ m', m.put s offset v = (m', .ok ()) := by
  have hinside : offset + (s.toBytes (s.size m.platform) v).length ≤ m.size := by
    rw [Scalar.length_toBytes]
    exact h.inside
  have hsplice := Bytes.splice?_eq_some_iff.2 ⟨hinside, rfl⟩
  have hlen : _ < wordLimit := (Bytes.length_of_splice? hsplice).trans_lt m.length_lt
  exact ⟨⟨m.platform, _, hlen⟩, put_eq_ok_iff.2 ⟨h.supported, rfl, hsplice⟩⟩

theorem get_of_fault {e : MarshalError} (h : m.Fault s offset e) : m.get s offset = .error e := by
  cases h with
  | unsupported hs => rw [get, Scalar.fieldSize_of_not_supported hs]
  | outside hs h =>
    rw [get, Scalar.fieldSize_of_supported hs]
    simp only [read?, stop?_of_lt h, Option.map_none]

/-- Where something is wrong with it, writing leaves the memory as it was. -/
theorem put_of_fault {e : MarshalError} (h : m.Fault s offset e) (v : s.Value) :
    m.put s offset v = (m, .error e) := by
  cases h with
  | unsupported hs => rw [put, Scalar.fieldSize_of_not_supported hs]
  | outside hs h =>
    rw [← Scalar.length_toBytes (s.size m.platform) v] at h
    rw [put, Scalar.fieldSize_of_supported hs]
    simp only [write?_of_lt h]

/-- An answer that is a success where the access can be made, and an error where something is wrong with
it, is a success nowhere else. -/
theorem ok_iff_fits {answer : Except MarshalError Unit} (hfits : m.Fits s offset → answer = .ok ())
    (hfault : ∀ e, m.Fault s offset e → answer = .error e) :
    answer = .ok () ↔ s.Supported m.platform ∧ offset + s.size m.platform ≤ m.size := by
  refine ⟨fun hok => ?_, fun h => hfits ⟨h.1, h.2⟩⟩
  rcases fits_or_fault m s offset with h | ⟨e, h⟩
  · exact ⟨h.supported, h.inside⟩
  · cases hok.symm.trans (hfault e h)

/-- Such an answer is an error for what is wrong with the access. -/
theorem fault_of_error {answer : Except MarshalError Unit} (hfits : m.Fits s offset → answer = .ok ())
    (hfault : ∀ e, m.Fault s offset e → answer = .error e) {e : MarshalError} (h : answer = .error e) :
    m.Fault s offset e := by
  rcases fits_or_fault m s offset with hfits' | ⟨e', hfault'⟩
  · cases h.symm.trans (hfits hfits')
  · cases h.symm.trans (hfault e' hfault')
    exact hfault'

/-- Only of a kind that the platform has not is the size at fault, wherever the access goes. -/
theorem ne_unsupported_iff {α : Type} {answer : Except MarshalError α}
    (hfits : m.Fits s offset → ∃ a, answer = .ok a)
    (hfault : ∀ e, m.Fault s offset e → answer = .error e) :
    (∀ bits, answer ≠ .error (.unsupportedWidth bits)) ↔ s.Supported m.platform := by
  constructor
  · intro h
    by_contra hs
    exact h _ (hfault _ (.unsupported hs))
  · intro hs bits hbits
    rcases fits_or_fault m s offset with h | ⟨e, h⟩
    · obtain ⟨a, ha⟩ := hfits h
      cases ha.symm.trans hbits
    · cases (hfault e h).symm.trans hbits
      cases h
      contradiction

/-! ### What accesses leave alone -/

/-- One memory is as another was, but for the bytes that may have been written. -/
structure Kept (written : Nat → Prop) (m m' : Memory) : Prop where
  platform : m'.platform = m.platform
  size : m'.size = m.size
  bytes : ∀ k, ¬ written k → m'.bytes[k]? = m.bytes[k]?

theorem Kept.refl (written : Nat → Prop) (m : Memory) : Kept written m m := ⟨rfl, rfl, fun _ _ => rfl⟩

theorem Kept.trans {written : Nat → Prop} {m₁ m₂ m₃ : Memory} (h : Kept written m₁ m₂)
    (h' : Kept written m₂ m₃) : Kept written m₁ m₃ :=
  ⟨h'.platform.trans h.platform, h'.size.trans h.size,
    fun k hk => (h'.bytes k hk).trans (h.bytes k hk)⟩

theorem Kept.mono {written written' : Nat → Prop} (h : Kept written m m')
    (hsub : ∀ k, written k → written' k) : Kept written' m m' :=
  ⟨h.platform, h.size, fun k hk => h.bytes k fun hw => hk (hsub k hw)⟩

/-- The bytes of the field of a value at an offset. -/
def field (p : Platform) (s : Scalar) (offset k : Nat) : Prop := offset ≤ k ∧ k < offset + s.size p

/-- Writing a value changes no byte outside its field, and none at all where it fails. -/
theorem kept_put (m : Memory) (s : Scalar) (offset : Nat) (v : s.Value) :
    Kept (field m.platform s offset) m (m.put s offset v).1 := by
  rcases fits_or_fault m s offset with h | ⟨e, h⟩
  · obtain ⟨m', hput⟩ := put_of_fits h v
    obtain ⟨-, hplatform, hsplice⟩ := put_eq_ok_iff.1 hput
    rw [hput]
    refine ⟨hplatform, Bytes.length_of_splice? hsplice, fun k hk => Bytes.getElem?_splice? hsplice ?_⟩
    rw [Scalar.length_toBytes]
    unfold field at hk
    omega
  · rw [put_of_fault h]
    exact .refl _ _

/-- The bytes that an access may write: those of the field, if it writes a value. -/
def Step.writes (p : Platform) : Step → Nat → Prop
  | .put s offset _ | .marshal s offset _ => field p s offset
  | .get .. | .unmarshal .. => fun _ => False

theorem kept_step (m : Memory) (step : Step) : Kept (step.writes m.platform) m (m.step step).1 := by
  cases step with
  | get s offset => simp only [Memory.step]; split <;> exact .refl _ _
  | unmarshal s offset c => exact .refl _ _
  | put s offset v => exact m.kept_put s offset v
  | marshal s offset c => exact m.kept_put s offset c.held

/-- **Bytes that no access may write stay as they are**, at every point of every sequence of accesses,
successful or not. -/
theorem kept_run (m : Memory) (steps : List Step) :
    ∀ r ∈ m.run steps, Kept (fun k => ∃ step ∈ steps, step.writes m.platform k) m r.1 := by
  induction steps generalizing m with
  | nil => intro r hr; cases hr
  | cons step steps ih =>
    have hstep := (m.kept_step step).mono fun k hk =>
      (⟨step, List.mem_cons_self, hk⟩ : ∃ step' ∈ step :: steps, step'.writes m.platform k)
    intro r hr
    rcases List.mem_cons.1 hr with rfl | hr
    · exact hstep
    · refine hstep.trans ((ih _ r hr).mono fun k hk => ?_)
      obtain ⟨step', hmem, hk⟩ := hk
      exact ⟨step', List.mem_cons_of_mem _ hmem, hstep.platform ▸ hk⟩

end Memory

end Trampoline
