import Mathlib.Data.List.Induction
import Mathlib.Logic.Function.Basic
import Trampoline.Proofs.Dispatch
import Trampoline.Publication

/-!
# Publishing to a dispatch table

* `Table.takes`, `Method.rejection`: whether a table takes a method whose code is in order, and what it
  says if not;
* `Matches.offer`: one method offered;
* `Publication.Reports`: what becomes of methods with distinct names, offered one after the other;
  `Reports.append`, `reports_publish`.
-/

namespace Trampoline

/-- Whether a table takes a method whose code is in order: it has a name, and the name resolves to
nothing yet. -/
def Table.takes (a : Arena) (t : Table) (m : Method) : Bool :=
  m.name != "" && (t.lookup? a m.name).isNone

/-- What a table says of a method whose code is in order when it does not take it. -/
def Method.rejection (m : Method) : Rejection :=
  if m.name = "" then .malformed m.name "empty name" else .duplicate m.name

theorem Table.takes_iff {a : Arena} {t : Table} {m : Method} :
    t.takes a m = true ↔ m.name ≠ "" ∧ t.lookup? a m.name = none := by
  simp [takes]

/-- A name is the first thing that is asked for. -/
theorem Table.bind_of_name_eq {a : Arena} {t : Table} {m : Method} {region : RegionId}
    (h : m.name = "") : t.bind a m region = (t, .error (.malformed m.name "empty name")) := by
  have hdefect : m.defect? a region = some "empty name" := if_pos h
  rw [Table.bind, hdefect]

namespace Registry.Matches

variable {a : Arena} {t : Table} {d : Directory} {m : Method} {region : RegionId}

/-- A method that is not taken is answered with its rejection, and nothing changes for look-ups. -/
theorem offer_refused (h : Matches ⟨a, t⟩ d) (hm : m.name ≠ "" → m.Sensible a region)
    (hrefused : t.takes a m = false) :
    (t.bind a m region).2 = .error m.rejection ∧
      ∀ name, (t.bind a m region).1.lookup? a name = t.lookup? a name := by
  unfold Method.rejection
  by_cases hname : m.name = ""
  · rw [if_pos hname, Table.bind_of_name_eq hname]
    exact ⟨rfl, fun _ => rfl⟩
  · have hlive : (t.lookup? a m.name).isSome = true := by
      cases hlookup : t.lookup? a m.name with
      | some g => rfl
      | none =>
        rw [Table.takes_iff.2 ⟨hname, hlookup⟩] at hrefused
        cases hrefused
    have hanswer := h.refines.bind_duplicate m region (hm hname) (h.lookup?_isSome_iff.1 hlive)
    rw [if_neg hname]
    exact ⟨hanswer, h.refines.bind_error m region _ hanswer⟩

/-- A method that is taken resolves from then on, and nothing changes for other names. -/
theorem offer_taken (h : Matches ⟨a, t⟩ d) (hm : m.name ≠ "" → m.Sensible a region)
    (htaken : t.takes a m = true) :
    (t.bind a m region).2 = .ok () ∧
      (∃ g, (t.bind a m region).1.lookup? a m.name = some g ∧ g.method = m ∧ g.region = region) ∧
      ∀ name, name ≠ m.name → (t.bind a m region).1.lookup? a name = t.lookup? a name := by
  obtain ⟨hname, hlookup⟩ := Table.takes_iff.1 htaken
  have hfree : ¬ ∃ b, d m.name = some b ∧ a.alive b.region = true := by
    rw [← h.lookup?_isSome_iff, hlookup]
    exact Bool.false_ne_true
  have hanswer := (h.refines.bind_ok m region).2 ⟨hm hname, hfree⟩
  have hstep : d.step ⟨a, t⟩ (.bind m region) = Function.update d m.name (some ⟨m, region⟩) := by
    simp only [Directory.step, hanswer]
  have hafter := hstep ▸ h.bind m region
  refine ⟨hanswer, ?_, fun name hne => ?_⟩
  · obtain ⟨r, hr, -⟩ := (hm hname).inside
    exact ⟨_, hafter.lookup?_eq_some_iff.2 ⟨_, r, Function.update_self _ _ _, hr, rfl⟩, rfl, rfl⟩
  · apply Option.ext
    intro g
    rw [hafter.lookup?_eq_some_iff, h.lookup?_eq_some_iff, Function.update_of_ne hne]

end Registry.Matches

/-! ### One method after the other -/

/-- What became of methods that were offered to a table `t`, which is `t'` now. -/
structure Publication.Reports (a : Arena) (region : RegionId) (t t' : Table) (ms : List Method)
    (p : Publication) : Prop where
  bound : p.bound = ms.filter (t.takes a)
  rejected : p.rejected = (ms.filter fun m => !t.takes a m).map fun m => (m, m.rejection)
  lookup_bound : ∀ m ∈ p.bound,
    ∃ g, t'.lookup? a m.name = some g ∧ g.method = m ∧ g.region = region
  lookup_other : ∀ name, (∀ m ∈ p.bound, m.name ≠ name) → t'.lookup? a name = t.lookup? a name

theorem Receiver.publish_append_singleton {σ : Type} (r : Receiver σ) (a : Arena) (region : RegionId)
    (ms : List Method) (m : Method) (s : σ) :
    r.publish a region (ms ++ [m]) s =
      ((r.bind a (r.publish a region ms s).1 m region).1,
        (r.publish a region ms s).2.record m (r.bind a (r.publish a region ms s).1 m region).2) := by
  simp only [publish, List.foldl_append, List.foldl_cons, List.foldl_nil]

/-- One more method, with a name of its own. -/
theorem Publication.Reports.append {a : Arena} {t t₁ : Table} {d : Directory} {region : RegionId}
    {ms : List Method} {m : Method} {p : Publication} (h : Reports a region t t₁ ms p)
    (hmatches : Registry.Matches ⟨a, t₁⟩ d) (hm : m.name ≠ "" → m.Sensible a region)
    (hnew : ∀ m' ∈ ms, m'.name ≠ m.name) :
    Reports a region t (t₁.bind a m region).1 (ms ++ [m]) (p.record m (t₁.bind a m region).2) := by
  have hbefore : ∀ m' ∈ p.bound, m'.name ≠ m.name := by
    intro m' hm'
    rw [h.bound, List.mem_filter] at hm'
    exact hnew m' hm'.1
  -- None of the methods before has this name, so the table has learnt nothing of it.
  have htakes : t₁.takes a m = t.takes a m := by
    rw [Table.takes, Table.takes, h.lookup_other m.name hbefore]
  cases hcase : t.takes a m with
  | true =>
    obtain ⟨hanswer, hfound, hother⟩ := hmatches.offer_taken hm (htakes.trans hcase)
    rw [hanswer]
    refine ⟨?_, ?_, fun m' hm' => ?_, fun name hname => ?_⟩
    · simp [record, h.bound, hcase]
    · simp [record, h.rejected, hcase]
    · rcases List.mem_append.1 hm' with hm' | hm'
      · rw [hother _ (hbefore m' hm')]
        exact h.lookup_bound m' hm'
      · rw [List.mem_singleton.1 hm']
        exact hfound
    · have hne := hname m (List.mem_append_right _ (List.mem_singleton_self m))
      rw [hother name hne.symm]
      exact h.lookup_other name fun m' hm' => hname m' (List.mem_append_left _ hm')
  | false =>
    obtain ⟨hanswer, hsame⟩ := hmatches.offer_refused hm (htakes.trans hcase)
    rw [hanswer]
    refine ⟨?_, ?_, fun m' hm' => ?_, fun name hname => ?_⟩
    · simp [record, h.bound, hcase]
    · simp [record, h.rejected, hcase]
    · rw [hsame]
      exact h.lookup_bound m' hm'
    · rw [hsame]
      exact h.lookup_other name hname

/-- **Every method is taken or refused for itself.** Methods with distinct names, whose code is in
order, are offered to a table one after the other: the table takes those that have a name which
resolved to nothing before, and no refusal stands in the way of another method. -/
theorem reports_publish {a : Arena} {t : Table} {d : Directory} {region : RegionId}
    (h : Registry.Matches ⟨a, t⟩ d) {ms : List Method} (hnodup : (ms.map Method.name).Nodup)
    (hsensible : ∀ m ∈ ms, m.name ≠ "" → m.Sensible a region) :
    Publication.Reports a region t (Receiver.table.publish a region ms t).1 ms
      (Receiver.table.publish a region ms t).2 ∧
      ∃ d', Registry.Matches ⟨a, (Receiver.table.publish a region ms t).1⟩ d' := by
  induction ms using List.reverseRecOn with
  | nil =>
    exact ⟨⟨rfl, rfl, fun m hm => absurd hm List.not_mem_nil, fun _ _ => rfl⟩, d, h⟩
  | append_singleton ms m ih =>
    rw [List.map_append, List.map_singleton, List.nodup_append] at hnodup
    obtain ⟨hnodup, -, hdistinct⟩ := hnodup
    obtain ⟨hreports, d₁, h₁⟩ := ih hnodup fun m' hm' =>
      hsensible m' (List.mem_append_left _ hm')
    have hm := hsensible m (List.mem_append_right _ (List.mem_singleton_self m))
    have hnew : ∀ m' ∈ ms, m'.name ≠ m.name := fun m' hm' =>
      hdistinct _ (List.mem_map_of_mem hm') _ (List.mem_singleton_self _)
    rw [Receiver.publish_append_singleton]
    exact ⟨hreports.append h₁ hm hnew, _, h₁.bind m region⟩

end Trampoline
