import Trampoline.CallShape.Lemmas
import Trampoline.Proofs.Batches

/-!
# Refusals and build errors

Whether a signature gets a stub is decided twice: when its call shape is looked for, and when a stub is
made. Both decisions are one.

* `Refusal.buildError`: the build error that a refusal turns into;
* `ofRequest_cases`: a request gets a stub if its signature has a call shape, and fails for the same
  reason otherwise;
* `Batch.compile_eq_callShape`: so does a compiler, at every point of every history.
-/

namespace Trampoline

/-- The error of a stub whose signature is refused. Types that no register carries are named without
their position; six registers carry integers, and eight carry floats. -/
def Refusal.buildError (stub : String) : Refusal → BuildError
  | platform p => .refused stub (.platform p)
  | convention c => .refused stub (.convention c)
  | disabled => .refused stub .disabled
  | result type => .unsupportedType stub type
  | parameter _ type => .unsupportedType stub type
  | tooManyIntegers count => .tooManyArguments stub .integer count 6
  | tooManyFloats count => .tooManyArguments stub .float count 8

namespace Stub

variable {p : Platform} {saver : Address} {r : Request}

/-- Behind the platform, the convention and the result, the parameters decide. -/
theorem ofRequest_params {ret : Return} (hplatform : p.isSysV = true)
    (hconvention : r.signature.convention = .default)
    (hret : Return.ofSlot? p r.signature.ret = some ret) :
    (∃ shape s, r.signature.callShape p = .ok shape ∧ ofRequest p saver r = .ok s) ∨
      ∃ reason, r.signature.callShape p = .error reason ∧
        ofRequest p saver r = .error (reason.buildError r.name) := by
  have hcount (b : Bank) := CallShape.count_filterMap p b r.signature.params ret
  simp only [ofRequest, Signature.callShape, hplatform, hconvention, hret, countSlots]
  rcases Signature.find?_isNone_cases p r.signature.params with
    ⟨hfind, hall⟩ | ⟨front, slot, hfind, ⟨back, hsplit⟩, hfront, hslot⟩
  · simp only [hfind, Signature.carriersFrom_eq_ok 0 hall, hcount]
    by_cases hintegers : SysV.maxIntegers <
        r.signature.params.countP fun s => (Carrier.ofSlot? p s).any (·.bank == .integer)
    · exact .inr ⟨_, if_pos hintegers, if_pos hintegers⟩
    by_cases hfloats : SysV.maxFloats <
        r.signature.params.countP fun s => (Carrier.ofSlot? p s).any (·.bank == .float)
    · exact .inr ⟨_, (if_neg hintegers).trans (if_pos hfloats),
        (if_neg hintegers).trans (if_pos hfloats)⟩
    · exact .inl ⟨_, _, (if_neg hintegers).trans (if_neg hfloats),
        (if_neg hintegers).trans (if_neg hfloats)⟩
  · simp only [hfind]
    rw [hsplit, Signature.carriersFrom_eq_error 0 back hfront hslot]
    exact .inr ⟨_, rfl, rfl⟩

/-- **A request gets a stub exactly if its signature has a call shape**, and fails for the same reason
otherwise. -/
theorem ofRequest_cases (p : Platform) (saver : Address) (r : Request) :
    (∃ shape s, r.signature.callShape p = .ok shape ∧ ofRequest p saver r = .ok s) ∨
      ∃ reason, r.signature.callShape p = .error reason ∧
        ofRequest p saver r = .error (reason.buildError r.name) := by
  by_cases hplatform : p.isSysV = true
  case neg =>
    have hnot : (!p.isSysV) = true := by simpa using hplatform
    exact .inr ⟨.platform p, if_pos hnot, if_pos hnot⟩
  have hnot : ¬ (!p.isSysV) = true := by simpa using hplatform
  by_cases hconvention : r.signature.convention = .default
  case neg =>
    exact .inr ⟨.convention r.signature.convention, (if_neg hnot).trans (if_pos hconvention),
      (if_neg hnot).trans (if_pos hconvention)⟩
  cases hret : Return.ofSlot? p r.signature.ret with
  | some ret => exact ofRequest_params hplatform hconvention hret
  | none =>
    refine .inr ⟨.result r.signature.ret.type, ?_, ?_⟩
    · simp only [Signature.callShape, hplatform, hconvention, hret]
      rfl
    · simp only [ofRequest, hplatform, hconvention, hret]
      rfl

end Stub

/-- A refusal of a parameter is one of the leftmost parameter that no register carries. -/
theorem Signature.leftmostBare_of_callShape {p : Platform} {s : Signature} {index : Nat}
    {type : ValueType} (h : s.callShape p = .error (.parameter index type)) :
    ∃ front slot, LeftmostBare p s.params front slot ∧ front.length = index ∧ slot.type = type := by
  unfold callShape at h
  split at h
  case isTrue => cases h
  split at h
  case isTrue => cases h
  split at h
  case h_1 => cases h
  case h_2 ret hret =>
    rcases find?_isNone_cases p s.params with ⟨-, hall⟩ | ⟨front, slot, -, hbare⟩
    · rw [carriersFrom_eq_ok 0 hall] at h
      simp only at h
      split at h
      · cases h
      · split at h <;> cases h
    · obtain ⟨back, hsplit⟩ := hbare.split
      rw [hsplit, carriersFrom_eq_error 0 back hbare.front hbare.bare, Nat.zero_add] at h
      cases h
      exact ⟨front, slot, hsplit ▸ hbare, rfl, rfl⟩

namespace Batch

/-- The same with the switch in front, which both decisions look at first. -/
theorem stub_cases (b : Batch) (r : Request) :
    (∃ shape s, b.callShape r.signature = .ok shape ∧ b.stub r = .ok s) ∨
      ∃ reason, b.callShape r.signature = .error reason ∧
        b.stub r = .error (reason.buildError r.name) := by
  unfold callShape stub
  cases b.settings.enabled with
  | true => exact Stub.ofRequest_cases b.platform b.settings.saver r
  | false => exact .inr ⟨.disabled, rfl, rfl⟩

/-- Under a new name, a request is answered as its stub is. -/
theorem compile_answer {b : Batch} {r : Request} (h : r.name ∉ b.names) :
    (b.compile r).2 = (b.stub r).map fun _ => () := by
  rcases b.compile_cases r with ⟨hname, -⟩ | ⟨-, s, hstub, hb⟩ | ⟨-, e, hstub, hb⟩
  · exact absurd hname h
  · rw [hstub, hb]
    rfl
  · rw [hstub, hb]
    rfl

/-- **Looking for a call shape and making a stub agree**, at every point of every history and for every
request under a name that is not pending. A signature has a call shape exactly if its request is taken.
If it has none, both give one reason, and a refused parameter is the leftmost one that no register
carries. -/
theorem compile_eq_callShape (p : Platform) (settings : Settings) (events : List Event) {r : Request}
    (hname : r.name ∉ (history p settings events).1.pending.map Stub.name) :
    ((history p settings events).1.compile r).2 =
        (match (history p settings events).1.callShape r.signature with
          | .ok _ => .ok ()
          | .error reason => .error (reason.buildError r.name)) ∧
      ∀ index type,
        (history p settings events).1.callShape r.signature = .error (.parameter index type) →
        ∃ front slot, Signature.LeftmostBare p r.signature.params front slot ∧
          front.length = index ∧ slot.type = type := by
  have hg := gathers_history p settings events
  generalize (history p settings events).1 = b at hg hname ⊢
  have hnew : r.name ∉ b.names := fun h => hname (hg.mem_names_iff.1 h)
  refine ⟨?_, fun index type h => ?_⟩
  · rcases b.stub_cases r with ⟨shape, s, hshape, hstub⟩ | ⟨reason, hshape, hstub⟩
    · rw [compile_answer hnew, hshape, hstub]
      rfl
    · rw [compile_answer hnew, hshape, hstub]
      rfl
  · unfold callShape at h
    split at h
    · rw [hg.platform_eq] at h
      exact Signature.leftmostBare_of_callShape h
    · cases h

/-- A function with a structure among more integers than have registers. -/
def crowdedRequest : Request :=
  ⟨"crowded", ⟨List.replicate 4 ⟨.i64, false⟩ ++ ⟨.struct, false⟩ :: List.replicate 4 ⟨.i32, true⟩,
    ⟨.f64, false⟩, .default⟩, 0x4000, true⟩

/-- A compiler that has taken one request. -/
def oneTaken : List Event := [.compile ⟨"kept", ⟨[], ⟨.void, false⟩, .default⟩, 0x4000, false⟩]

theorem compile_crowded :
    crowdedRequest.name ∉ (history .host (.default 0x5000) oneTaken).1.pending.map Stub.name ∧
      (history .host (.default 0x5000) oneTaken).1.callShape crowdedRequest.signature =
        .error (.parameter 4 .struct) ∧
      ((history .host (.default 0x5000) oneTaken).1.compile crowdedRequest).2 =
        .error (.unsupportedType "crowded" .struct) ∧
      ∃ front slot, Signature.LeftmostBare .host crowdedRequest.signature.params front slot ∧
        front.length = 4 ∧ slot.type = .struct := by
  have hname : crowdedRequest.name ∉ (history .host (.default 0x5000) oneTaken).1.pending.map Stub.name := by
    decide
  have hshape : (history .host (.default 0x5000) oneTaken).1.callShape crowdedRequest.signature =
      .error (.parameter 4 .struct) := by rfl
  obtain ⟨hanswer, hleftmost⟩ := compile_eq_callShape .host (.default 0x5000) oneTaken hname
  rw [hshape] at hanswer
  exact ⟨hname, hshape, hanswer, hleftmost 4 .struct hshape⟩

end Batch

end Trampoline
