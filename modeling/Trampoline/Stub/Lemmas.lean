import Mathlib.Logic.Basic
import Trampoline.Stub

/-!
# Requests with stubs

* `Supported`, `ofRequest_eq_ok_iff`: which requests get a stub, and what their stubs are;
* `ofRequest_savesError`: saving the error code or not makes no difference to that;
* `Emitted`: the stubs that some request gets;
* `ofRequest_ne_duplicate`: a request alone is never refused as a duplicate.
-/

namespace Trampoline

namespace Stub

/-- A signature that stubs can carry, with the way its result comes back. -/
structure Supported (p : Platform) (s : Signature) (ret : Return) : Prop where
  platform : p.isSysV = true
  convention : s.convention = .default
  result : Return.ofSlot? p s.ret = some ret
  params : ∀ slot ∈ s.params, (Carrier.ofSlot? p slot).isSome = true
  integers : countSlots p .integer s.params ≤ SysV.maxIntegers
  floats : countSlots p .float s.params ≤ SysV.maxFloats

/-- The routine that a stub calls to save the error code, if it does. -/
def saverOf (saver : Address) (r : Request) : Option Address :=
  if r.savesError then some saver else none

/-- The code of the stub of a request whose result comes back in a known way. -/
def codeOf (p : Platform) (saver : Address) (r : Request) (ret : Return) : Code :=
  .assemble (program (countSlots p .integer r.signature.params) ret r.address (saverOf saver r))

/-- The requests that get a stub are those with a supported signature. -/
theorem ofRequest_eq_ok_iff {p : Platform} {saver : Address} {r : Request} {s : Stub} :
    ofRequest p saver r = .ok s ↔ ∃ ret, Supported p r.signature ret ∧
      s = ⟨r.name, r.signature, r.signature.descriptor p, codeOf p saver r ret⟩ := by
  have hfind : (r.signature.params.find? fun slot => (Carrier.ofSlot? p slot).isNone) = none ↔
      ∀ slot ∈ r.signature.params, (Carrier.ofSlot? p slot).isSome = true := by
    simp [List.find?_eq_none, Option.isSome_iff_ne_none]
  constructor
  · intro h
    unfold ofRequest at h
    simp only at h
    by_cases hplatform : p.isSysV = true
    case neg => rw [if_pos (by simpa using hplatform)] at h; cases h
    by_cases hconvention : r.signature.convention = .default
    case neg => rw [if_neg (by simpa using hplatform), if_pos hconvention] at h; cases h
    rw [if_neg (by simpa using hplatform), if_neg (not_not.2 hconvention)] at h
    cases hret : Return.ofSlot? p r.signature.ret with
    | none => rw [hret] at h; cases h
    | some ret =>
      simp only [hret] at h
      split at h
      case h_1 => cases h
      case h_2 hparams =>
        split at h
        case isTrue => cases h
        split at h
        case isTrue => cases h
        case isFalse hints hfloats =>
          cases h
          exact ⟨ret, ⟨hplatform, hconvention, hret, hfind.1 hparams, Nat.le_of_not_lt hints,
            Nat.le_of_not_lt hfloats⟩, rfl⟩
  · rintro ⟨ret, h, rfl⟩
    simp only [ofRequest, h.platform, h.convention, h.result, hfind.2 h.params,
      if_neg (Nat.not_lt.2 h.integers), if_neg (Nat.not_lt.2 h.floats)]
    rfl

theorem name_of_ofRequest {p : Platform} {saver : Address} {r : Request} {s : Stub}
    (h : ofRequest p saver r = .ok s) : s.name = r.name := by
  obtain ⟨ret, -, rfl⟩ := ofRequest_eq_ok_iff.1 h
  rfl

/-- A stub is that of some request, on some platform. -/
def Emitted (s : Stub) : Prop := ∃ p saver r, ofRequest p saver r = .ok s

theorem Emitted.code_eq {s : Stub} (h : s.Emitted) : ∃ items, s.code = .assemble items := by
  obtain ⟨p, saver, r, h⟩ := h
  obtain ⟨ret, -, rfl⟩ := ofRequest_eq_ok_iff.1 h
  exact ⟨_, rfl⟩

/-- A request gets a stub whether or not it wants the error code saved. -/
theorem ofRequest_savesError {p : Platform} {saver : Address} {r : Request} {s : Stub} (b : Bool)
    (h : ofRequest p saver r = .ok s) :
    ∃ s', ofRequest p saver { r with savesError := b } = .ok s' := by
  obtain ⟨ret, hsupported, -⟩ := ofRequest_eq_ok_iff.1 h
  exact ⟨_, ofRequest_eq_ok_iff.2 ⟨ret, hsupported, rfl⟩⟩

/-- Only a batch knows which names are used. -/
theorem ofRequest_ne_duplicate (p : Platform) (saver : Address) (r : Request) (name : String) :
    ofRequest p saver r ≠ .error (.duplicate name) := by
  intro h
  unfold ofRequest at h
  simp only at h
  split at h
  case isTrue => cases h
  split at h
  case isTrue => cases h
  split at h
  case h_1 => cases h
  case h_2 =>
    split at h
    case h_1 => cases h
    case h_2 =>
      split at h
      case isTrue => cases h
      split at h <;> cases h

end Stub

end Trampoline
