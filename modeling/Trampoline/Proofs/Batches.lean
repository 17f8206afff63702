import Mathlib.Data.List.Forall2
import Mathlib.Data.List.Nodup
import Trampoline.Compiler.History
import Trampoline.Stub.Lemmas

/-!
# What a batch gathers

* `Batch.Gathers`: the stubs of a batch are those of the requests that it took, under distinct names;
* `Batch.Gathers.step`, `gathers_history`: so it is after every event, and after every history;
* `Batch.Gathers.mem_names_iff`: the names in use are those of the stubs.
-/

namespace Trampoline

namespace Batch

/-- The stubs of a batch are those of the requests that it took, in order; no two requests have one
name, and the names in use are theirs. -/
structure Gathers (p : Platform) (settings : Settings) (b : Batch) (requests : List Request) : Prop where
  platform_eq : b.platform = p
  settings_eq : b.settings = settings
  pending : List.Forall₂ (fun r s => Stub.ofRequest p settings.saver r = .ok s) requests
    b.pending
  names : b.names = (requests.map Request.name).reverse
  nodup : (requests.map Request.name).Nodup

theorem stub_eq_ok_iff {b : Batch} {r : Request} {s : Stub} :
    b.stub r = .ok s ↔ b.settings.enabled = true ∧
      Stub.ofRequest b.platform b.settings.saver r = .ok s := by
  unfold stub
  cases b.settings.enabled <;> simp

theorem stub_ne_duplicate (b : Batch) (r : Request) (name : String) :
    b.stub r ≠ .error (.duplicate name) := by
  unfold stub
  split
  · exact Stub.ofRequest_ne_duplicate _ _ _ _
  · intro h
    cases h

/-- What asking for a stub can come to. -/
theorem compile_cases (b : Batch) (r : Request) :
    (r.name ∈ b.names ∧ b.compile r = (b, .error (.duplicate r.name))) ∨
    (r.name ∉ b.names ∧ ∃ s, b.stub r = .ok s ∧
      b.compile r = ({ b with pending := b.pending ++ [s], names := r.name :: b.names }, .ok ())) ∨
    (r.name ∉ b.names ∧ ∃ e, b.stub r = .error e ∧ b.compile r = (b.clear, .error e)) := by
  unfold compile
  by_cases hname : r.name ∈ b.names
  · exact .inl ⟨hname, if_pos (by simpa using hname)⟩
  · rw [if_neg (by simpa using hname)]
    cases hstub : b.stub r with
    | ok s => exact .inr (.inl ⟨hname, s, rfl, rfl⟩)
    | error e => exact .inr (.inr ⟨hname, e, rfl, rfl⟩)

namespace Gathers

variable {p : Platform} {settings : Settings} {b : Batch} {requests : List Request}

theorem new (p : Platform) (settings : Settings) : Gathers p settings (.new p settings) [] :=
  ⟨rfl, rfl, .nil, rfl, List.nodup_nil⟩

theorem clear (h : Gathers p settings b requests) : Gathers p settings b.clear [] :=
  ⟨h.platform_eq, h.settings_eq, .nil, rfl, List.nodup_nil⟩

/-- One more stub, under a name that is not used. -/
theorem add (h : Gathers p settings b requests) {r : Request} {s : Stub} (hname : r.name ∉ b.names)
    (hstub : b.stub r = .ok s) :
    Gathers p settings { b with pending := b.pending ++ [s], names := r.name :: b.names }
      (requests ++ [r]) := by
  have hrequest : Stub.ofRequest p settings.saver r = .ok s := by
    have := (stub_eq_ok_iff.1 hstub).2
    rwa [h.platform_eq, h.settings_eq] at this
  have hnew : r.name ∉ requests.map Request.name := by
    rwa [h.names, List.mem_reverse] at hname
  refine ⟨h.platform_eq, h.settings_eq, List.rel_append h.pending (.cons hrequest .nil), ?_, ?_⟩
  · show r.name :: b.names = _
    rw [h.names, List.map_append, List.reverse_append]
    rfl
  · rw [List.map_append, List.map_singleton]
    refine h.nodup.append (List.nodup_singleton _) ?_
    rw [List.disjoint_singleton]
    exact hnew

/-- The stubs of a batch have the names of its requests. -/
theorem names_pending (h : Gathers p settings b requests) :
    b.pending.map Stub.name = requests.map Request.name := by
  have hnames := h.pending.flip.imp fun _ _ hstub => Stub.name_of_ofRequest hstub
  rw [← List.forall₂_eq_eq_eq, List.forall₂_map_left_iff, List.forall₂_map_right_iff]
  exact hnames

/-- The names in use are those of the stubs. -/
theorem mem_names_iff (h : Gathers p settings b requests) {name : String} :
    name ∈ b.names ↔ name ∈ b.pending.map Stub.name := by
  rw [h.names, List.mem_reverse, h.names_pending]

/-- Every event keeps a batch and its requests together. -/
theorem step (h : Gathers p settings b requests) (e : Event) :
    Gathers p settings (b.step e) (accepted requests b e) := by
  cases e with
  | compile r =>
    rcases b.compile_cases r with ⟨-, hb⟩ | ⟨hname, s, hstub, hb⟩ | ⟨-, e, hstub, hb⟩
    · simp only [Batch.step, accepted, hb]
      exact h
    · simp only [Batch.step, accepted, hb]
      exact h.add hname hstub
    · have hrequests : accepted requests b (.compile r) = [] := by
        simp only [accepted, hb]
        split
        · cases ‹Except.error e = _›
        · cases ‹Except.error e = _›
          exact absurd hstub (stub_ne_duplicate b r _)
        · rfl
      rw [hrequests, Batch.step, hb]
      exact h.clear
  | commit sys =>
    show Gathers p settings (b.commit sys).1 []
    unfold commit
    split
    case isTrue hempty =>
      have hnil : b.pending = [] := List.isEmpty_iff.1 hempty
      have hrequests : requests = [] := List.forall₂_nil_right_iff.1 (hnil ▸ h.pending)
      exact hrequests ▸ h
    case isFalse => exact h.clear

end Gathers

/-- **A batch gathers the stubs of the requests that it took**, at every point of every history. -/
theorem gathers_history (p : Platform) (settings : Settings) (events : List Event) :
    Gathers p settings (history p settings events).1 (history p settings events).2 := by
  unfold history
  have h := Gathers.new p settings
  generalize Batch.new p settings = b at h
  generalize ([] : List Request) = requests at h
  induction events generalizing b requests with
  | nil => exact h
  | cons e events ih => exact ih _ _ (h.step e)

end Batch

end Trampoline
