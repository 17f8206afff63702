import Mathlib.Data.List.Forall2
import Mathlib.Data.List.Induction
import Trampoline.Linkage.History
import Trampoline.Linkage.Lemmas
import Trampoline.Proofs.Attachment

/-!
# What a compiler keeps

A compiler has the stubs that are pending and, apart from them, the names in use. The two stay together
over every sequence of requests and attachments.

* `Filling.foldlM_eq_duplicate`, `ofStubs_ne_duplicate`: only a name that stood before in the batch is a
  duplicate when the batch is laid out;
* `Batch.eventOf`, `after_batch`, `taken_batch`: what a call does to the batch of a compiler;
* `Batch.Gathers.of_resets`: a call that makes the compiler start again leaves nothing behind;
* `Compiler.Keeps`, `keeps_history`: what is pending, which names are refused, and what starts again.
-/

namespace Trampoline

/-! ### Duplicates in a batch -/

namespace Region

theorem Filling.add_eq_duplicate {alignment : Nat} {f : Filling} {s : Stub} {name : String}
    (h : f.add alignment s = .error (.build (.duplicate name))) :
    s.name = name ∧ name ∈ f.entries.map Entry.name := by
  unfold add at h
  simp only at h
  split at h
  case h_1 => cases h
  case h_2 pages hpages =>
    split at h
    case isTrue hused =>
      have hname : s.name = name := by simpa using h
      exact ⟨hname, by simpa [hname] using hused⟩
    case isFalse => cases h

/-- A name is a duplicate when a stub of that name stands before, in the block or in the list. -/
theorem Filling.foldlM_eq_duplicate {alignment : Nat} {f : Filling} {stubs : List Stub} {name : String}
    (h : stubs.foldlM (Filling.add alignment) f = .error (.build (.duplicate name))) :
    ∃ front s back, stubs = front ++ s :: back ∧ s.name = name ∧
      name ∈ f.entries.map Entry.name ++ front.map Stub.name := by
  induction stubs generalizing f with
  | nil => cases h
  | cons s stubs ih =>
    rw [List.foldlM_cons] at h
    cases hadd : f.add alignment s with
    | error e =>
      rw [hadd] at h
      cases h
      obtain ⟨hname, hused⟩ := add_eq_duplicate hadd
      exact ⟨[], s, stubs, rfl, hname, by simpa using hused⟩
    | ok f₁ =>
      rw [hadd] at h
      obtain ⟨front, s', back, rfl, hname, hused⟩ := ih h
      obtain ⟨field, code, pages, -, -, -, -, rfl⟩ := of_add hadd
      refine ⟨s :: front, s', back, rfl, hname, ?_⟩
      simpa [or_assoc] using hused

/-- Stubs with distinct names are never refused as duplicates. -/
theorem ofStubs_ne_duplicate {sys : System} {settings : Settings} {stubs : List Stub}
    (hnodup : (stubs.map Stub.name).Nodup) (name : String) :
    ofStubs sys settings stubs ≠ .error (.build (.duplicate name)) := by
  intro h
  rcases ofStubs_cases sys settings stubs with ⟨-, hover⟩ | ⟨alignment, -, -,
    ⟨-, hnone⟩ | ⟨pages, -, ⟨e, hfill, herror⟩ | ⟨filled, -, hfinish⟩⟩⟩
  · cases hover.symm.trans h
  · cases hnone.symm.trans h
  · cases herror.symm.trans h
    obtain ⟨front, s, back, rfl, hname, hused⟩ := Filling.foldlM_eq_duplicate hfill
    have hbefore : s.name ∈ front.map Stub.name := by simpa [hname] using hused
    rw [List.map_append, List.map_cons] at hnodup
    exact (List.nodup_append.1 hnodup).2.2 _ hbefore _ List.mem_cons_self rfl
  · obtain ⟨reason, -, hreason⟩ := Filling.finish_eq_error_iff.1 (hfinish.symm.trans h)
    cases hreason

end Region

/-! ### Calls and batches -/

/-- The compiler that an attachment leaves is the one that has laid out its batch. -/
theorem Linkage.compiler_attach {σ : Type} (l : Linkage) (sys : System) (c : Compiler)
    (receiver : Receiver σ) (s : σ) : (l.attach sys c receiver s).compiler = (c.commit sys).1 := by
  unfold attach
  rcases c.commit sys with ⟨c', _ | e | r⟩ <;> rfl

/-- An attachment fails as the layout of the batch does. -/
theorem Linkage.attach_eq_error {σ : Type} {l : Linkage} {sys : System} {b : Batch}
    {receiver : Receiver σ} {s : σ} {e : CommitFailure}
    (h : (l.attach sys (.batch b) receiver s).answer = .error e) :
    Region.ofStubs sys b.settings b.pending = .error e := by
  rcases l.attach_cases sys (.batch b) receiver s with
    ⟨-, hattach⟩ | ⟨b', hb, -, ⟨e', herror, hattach⟩ | ⟨region, -, hattach⟩⟩
  · rw [hattach] at h
    cases h
  · cases hb
    rw [hattach] at h
    cases h
    exact herror
  · rw [hattach] at h
    cases h

namespace Batch

/-- What a call is to a batch. -/
def eventOf : Compiler.Call → Event
  | .compile r => .compile r
  | .attach _ sys _ _ => .commit sys

theorem after_batch (b : Batch) (call : Compiler.Call) :
    (Compiler.batch b).after call = .batch (b.step (eventOf call)) := by
  cases call with
  | compile r => rfl
  | attach l sys receiver s => exact l.compiler_attach sys (.batch b) receiver s

theorem taken_batch (b : Batch) (requests : List Request) (call : Compiler.Call) :
    (Compiler.batch b).taken requests call = accepted requests b (eventOf call) := by
  cases call with
  | attach l sys receiver s => rfl
  | compile r =>
    have hanswer : ((Compiler.batch b).compile r).2 = (b.compile r).2 := rfl
    simp only [Compiler.taken, Compiler.resets, hanswer, eventOf, accepted]
    rcases (b.compile r).2 with e | _
    · cases e <;> simp [Except.isOk, Except.toBool]
    · simp [Except.isOk, Except.toBool]

/-- A request is a duplicate if its name is in use. -/
theorem compile_eq_duplicate_iff {b : Batch} {r : Request} {name : String} :
    (b.compile r).2 = .error (.duplicate name) ↔ name = r.name ∧ name ∈ b.names := by
  rcases b.compile_cases r with ⟨hname, hb⟩ | ⟨hname, s, -, hb⟩ | ⟨hname, e, hstub, hb⟩
  · rw [hb]
    constructor
    · rintro ⟨⟩
      exact ⟨rfl, hname⟩
    · rintro ⟨rfl, -⟩
      rfl
  · rw [hb]
    constructor
    · rintro ⟨⟩
    · rintro ⟨rfl, hused⟩
      exact absurd hused hname
  · rw [hb]
    constructor
    · rintro ⟨⟩
      exact absurd hstub (stub_ne_duplicate b r name)
    · rintro ⟨rfl, hused⟩
      exact absurd hused hname

end Batch

namespace Compiler

/-- A compiler that was made for a platform has a batch, which gathers the requests that were taken. -/
theorem gathers_calls (p : Platform) (settings : Settings) (calls : List Call) :
    ∃ b, (history p settings calls).1 = .batch b ∧
      b.Gathers p settings (history p settings calls).2 := by
  induction calls using List.reverseRecOn with
  | nil => exact ⟨_, rfl, .new p settings⟩
  | append_singleton calls call ih =>
    obtain ⟨b, hb, hg⟩ := ih
    simp only [history, List.foldl_append, List.foldl_cons, List.foldl_nil] at hb hg ⊢
    rw [hb, Batch.after_batch, Batch.taken_batch]
    exact ⟨_, rfl, hg.step _⟩

/-- What a compiler has that was made for a platform under some settings, when `requests` were taken
since it last started again. -/
structure Keeps (p : Platform) (settings : Settings) (c : Compiler) (requests : List Request) :
    Prop where
  /-- The stubs of these requests are pending, in order, -/
  pending : List.Forall₂ (fun r s => Stub.ofRequest p settings.saver r = .ok s) requests
    c.pending
  /-- under distinct names, -/
  distinct : (c.pending.map Stub.name).Nodup
  /-- and these are the names in use. -/
  names : ∃ b, c = .batch b ∧ b.names.Nodup ∧ ∀ name, name ∈ b.names ↔ name ∈ c.pending.map Stub.name
  /-- A request is a duplicate if its name is pending, and then nothing changes. -/
  duplicate : ∀ r name, (c.compile r).2 = .error (.duplicate name) ↔
    name = r.name ∧ name ∈ c.pending.map Stub.name
  unchanged : ∀ r name, (c.compile r).2 = .error (.duplicate name) → (c.compile r).1 = c
  /-- An attachment never fails for a duplicate, wherever it goes and whatever the system answers. -/
  attach : ∀ {σ : Type} (l : Linkage) (sys : System) (receiver : Receiver σ) (s : σ) (name : String),
    (l.attach sys c receiver s).answer ≠ .error (.build (.duplicate name))
  /-- Behind a call that makes the compiler start again nothing is pending, and every request that has a
  stub is taken, under whatever name. -/
  fresh : ∀ call, c.resets call = true → (c.after call).pending = [] ∧
    ∀ r s, settings.enabled = true → Stub.ofRequest p settings.saver r = .ok s →
      ((c.after call).compile r).2 = .ok () ∧ ((c.after call).compile r).1.pending = [s]

end Compiler

namespace Batch.Gathers

variable {p : Platform} {settings : Settings} {b : Batch} {requests : List Request}

/-- A call that makes the compiler start again leaves no request behind. -/
theorem of_resets (h : Gathers p settings b requests) {call : Compiler.Call}
    (hresets : (Compiler.batch b).resets call = true) :
    Gathers p settings (b.step (eventOf call)) [] := by
  have htaken : (Compiler.batch b).taken requests call = [] := if_pos hresets
  rw [← htaken, taken_batch]
  exact h.step (eventOf call)

theorem pending_eq_nil (h : Gathers p settings b []) : b.pending = [] := by
  simpa using h.pending

/-- A batch without requests takes every request that has a stub. -/
theorem compile_of_empty (h : Gathers p settings b []) (henabled : settings.enabled = true) {r : Request}
    {s : Stub} (hstub : Stub.ofRequest p settings.saver r = .ok s) :
    (b.compile r).2 = .ok () ∧ (b.compile r).1.pending = [s] := by
  have hnames : r.name ∉ b.names := by simp [h.names]
  have hstub : b.stub r = .ok s := by
    rw [stub_eq_ok_iff, h.settings_eq, h.platform_eq]
    exact ⟨henabled, hstub⟩
  simp [compile, hnames, hstub, h.pending_eq_nil]

theorem nodup_pending (h : Gathers p settings b requests) : (b.pending.map Stub.name).Nodup := by
  rw [h.names_pending]
  exact h.nodup

/-- A batch that gathers its requests is what a compiler keeps. -/
theorem keeps (h : Gathers p settings b requests) :
    Compiler.Keeps p settings (.batch b) requests where
  pending := h.pending
  distinct := h.nodup_pending
  names := ⟨b, rfl, by rw [h.names]; exact List.nodup_reverse.2 h.nodup, fun _ => h.mem_names_iff⟩
  duplicate r name := by
    show (b.compile r).2 = _ ↔ _ ∧ name ∈ b.pending.map Stub.name
    rw [compile_eq_duplicate_iff, h.mem_names_iff]
  unchanged r name hanswer := by
    obtain ⟨rfl, hused⟩ := compile_eq_duplicate_iff.1 hanswer
    show Compiler.batch (b.compile r).1 = .batch b
    rw [compile, if_pos (by simpa using hused)]
  attach l sys receiver s name herror :=
    Region.ofStubs_ne_duplicate h.nodup_pending name (Linkage.attach_eq_error herror)
  fresh call hresets := by
    have hfresh := h.of_resets hresets
    rw [after_batch]
    exact ⟨hfresh.pending_eq_nil, fun r s henabled hstub => hfresh.compile_of_empty henabled hstub⟩

end Batch.Gathers

/-- **The stubs and the names of a compiler stay together**, for every platform, under all settings, and
whatever was compiled and attached before: the pending stubs are those of the requests that were taken
since the compiler last started again, the names in use are theirs, only those are refused as
duplicates, and none is when the batch is attached. -/
theorem Compiler.keeps_history (p : Platform) (settings : Settings) (calls : List Call) :
    Keeps p settings (history p settings calls).1 (history p settings calls).2 := by
  obtain ⟨b, hb, hg⟩ := gathers_calls p settings calls
  rw [hb]
  exact hg.keeps

/-- Two stubs are pending, and a third one of the same name as the first is refused. The system does not let
the batch be executed, and then the name is free again. -/
theorem Compiler.keeps_history_denied :
    let sys : System := .denying (.granting 4096 fun _ => some 0x10000) "denied"
    let f := Linkage.plainRequest "f"
    let c := (history .host (.default 0x5000) [.compile f, .compile (Linkage.plainRequest "g")]).1
    let done := Linkage.new.attach sys c Receiver.table .empty
    c.pending.map Stub.name = ["f", "g"] ∧ c.compile f = (c, .error (.duplicate "f")) ∧
      done.answer = .error (.build (.protection "denied")) ∧ done.compiler.pending = [] ∧
      (done.compiler.compile f).2 = .ok () ∧
      (done.compiler.compile f).1.pending.map Stub.name = ["f"] := by
  intro sys f c done
  have hkeeps := keeps_history .host (.default 0x5000) [.compile f, .compile (Linkage.plainRequest "g")]
  have hpending : c.pending.map Stub.name = ["f", "g"] := by decide +kernel
  have hduplicate : (c.compile f).2 = .error (.duplicate "f") := by
    refine (hkeeps.duplicate f "f").2 ⟨rfl, ?_⟩
    rw [hpending]
    exact List.mem_cons_self
  -- The attachment fails, and even so the compiler starts again.
  obtain ⟨hempty, haccepts⟩ := hkeeps.fresh (.attach .new sys Receiver.table .empty) rfl
  obtain ⟨stub, hstub⟩ : ∃ stub, Stub.ofRequest .host 0x5000 f = .ok stub := ⟨_, rfl⟩
  obtain ⟨hok, hagain⟩ := haccepts f stub rfl hstub
  have hname : [stub].map Stub.name = ["f"] := congrArg (fun name => [name]) (Stub.name_of_ofRequest hstub)
  exact ⟨hpending, Prod.ext (hkeeps.unchanged f "f" hduplicate) hduplicate, by decide +kernel, hempty, hok,
    (congrArg (List.map Stub.name) hagain).trans hname⟩

end Trampoline
