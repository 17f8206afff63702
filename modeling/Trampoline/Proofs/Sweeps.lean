import Mathlib.Data.List.Induction
import Mathlib.Data.Set.Card
import Mathlib.Tactic.TFAE
import Trampoline.Lists
import Trampoline.Proofs.Dispatch

/-!
# Dead bindings

The binding of a dead region stays in its table until it is swept out. No look-up shows it, but the size
of the table does, and so does the next purge.

* `Table.Swept`: a table without dead bindings; `Table.Distinct`: one that has no name twice;
* `distinct_history`: no table ever has a name twice;
* `purge_eq_zero_iff`, `Distinct.size_eq_ncard_iff`: what shows that a table is swept;
* `swept_bind_iff`, `sweeps_history`: which offers leave a table swept.
-/

namespace Trampoline

namespace Table

variable {a : Arena} {t : Table}

/-- The region of every binding lives. -/
def Swept (t : Table) (a : Arena) : Prop := ∀ b ∈ t.bindings, a.alive b.region = true

/-- No name is bound twice, be it alive or dead. -/
def Distinct (t : Table) : Prop := (t.bindings.map fun b => b.method.name).Nodup

/-! ### No name twice -/

theorem distinct_empty : Distinct empty := List.nodup_nil

theorem Distinct.sweep (h : t.Distinct) (a : Arena) : (t.sweep a).Distinct :=
  h.sublist (List.filter_sublist.map _)

theorem Distinct.unbind (h : t.Distinct) (name : String) : (t.unbind name).1.Distinct :=
  h.sublist (List.filter_sublist.map _)

theorem Distinct.bind (h : t.Distinct) (a : Arena) (m : Method) (region : RegionId) :
    (t.bind a m region).1.Distinct := by
  rcases t.bind_cases a m region with ⟨reason, -, hb⟩ | ⟨-, -, hb⟩ | ⟨-, hfree, hb⟩
  · rw [hb]
    exact h
  · rw [hb]
    exact h.sweep a
  · rw [hb]
    have hnew : ∀ b ∈ (t.sweep a).bindings, b.method.name ≠ m.name := by
      intro b hmem heq
      exact List.find?_eq_none.1 hfree b hmem (by simp [heq])
    rw [Distinct, List.map_append, List.map_singleton]
    refine (h.sweep a).append (List.nodup_singleton _) (List.disjoint_singleton.2 ?_)
    simpa using hnew

/-! ### What shows dead bindings -/

/-- A sweep takes something out unless there is nothing dead. -/
theorem size_sweep_eq_iff : (t.sweep a).size = t.size ↔ t.Swept a := by
  unfold size Table.sweep Swept
  rw [List.length_filter_eq_length_iff]

theorem purge_eq_zero_iff : (t.purge a).2 = 0 ↔ t.Swept a := by
  have hle : (t.sweep a).size ≤ t.size := List.length_filter_le _ _
  rw [← size_sweep_eq_iff]
  show t.size - (t.sweep a).size = 0 ↔ _
  omega

/-- The names that resolve are those of the living bindings. -/
theorem Distinct.lookup?_isSome_iff (h : t.Distinct) {name : String} :
    (t.lookup? a name).isSome = true ↔
      name ∈ (t.sweep a).bindings.map fun b => b.method.name := by
  have hfind : ∀ b, t.find? name = some b ↔ b ∈ t.bindings ∧ b.method.name = name :=
    fun b => find?_key_eq_some_iff h
  simp only [lookup?, Option.isSome_bind, Option.any_eq_true, Option.isSome_map, hfind, List.mem_map,
    mem_sweep, Arena.alive]
  exact exists_congr fun b => and_right_comm

/-- A table is as large as the number of names that resolve only if there is nothing dead in it. -/
theorem Distinct.size_eq_ncard_iff (h : t.Distinct) :
    t.size = {name | (t.lookup? a name).isSome = true}.ncard ↔ t.Swept a := by
  have hnames : {name | (t.lookup? a name).isSome = true} =
      ((t.sweep a).bindings.map fun b => b.method.name).toFinset := by
    ext name
    simp only [Set.mem_ofPred_eq, h.lookup?_isSome_iff, Finset.mem_coe, List.mem_toFinset]
  have hcard : {name | (t.lookup? a name).isSome = true}.ncard = (t.sweep a).size := by
    rw [hnames, Set.ncard_coe_finset, List.toFinset_card_of_nodup (h.sweep a), List.length_map]
    rfl
  rw [hcard, eq_comm, size_sweep_eq_iff]

/-! ### Offers -/

theorem swept_sweep (t : Table) (a : Arena) : (t.sweep a).Swept a := fun _ hb => (mem_sweep.1 hb).2

/-- An offer leaves a table swept unless it is malformed and the table was not swept before. -/
theorem swept_bind_iff (t : Table) (a : Arena) (m : Method) (region : RegionId) :
    (t.bind a m region).1.Swept a ↔
      t.Swept a ∨ ∀ name reason, (t.bind a m region).2 ≠ .error (.malformed name reason) := by
  rcases t.bind_cases a m region with ⟨reason, -, hb⟩ | ⟨-, -, hb⟩ | ⟨hm, -, hb⟩
  · simp [hb]
  · simp [hb, swept_sweep]
  · have hnew : a.alive region = true := by
      obtain ⟨r, hr, -⟩ := hm.inside
      exact Arena.alive_of_get? hr
    have hall : (⟨(t.sweep a).bindings ++ [⟨m, region⟩]⟩ : Table).Swept a := by
      intro b hmem
      rcases List.mem_append.1 hmem with hmem | hmem
      · exact swept_sweep t a b hmem
      · rw [List.mem_singleton.1 hmem]
        exact hnew
    simp [hb, hall]

end Table

namespace Registry

theorem distinct_step {s : Registry} (h : s.table.Distinct) (e : Event) : (s.step e).table.Distinct := by
  cases e with
  | add r => exact h
  | acquire region => exact h
  | release region => exact h
  | bind m region => exact h.bind s.arena m region
  | unbind name => exact h.unbind name
  | purge => exact h.sweep s.arena
  | lookup name =>
    unfold step
    simp only
    split <;> exact h

/-- No table ever has a name twice. -/
theorem distinct_history (events : List Event) : (history events).1.table.Distinct := by
  induction events using List.reverseRecOn with
  | nil => exact Table.distinct_empty
  | append_singleton events e ih =>
    simp only [history, List.foldl_append, List.foldl_cons, List.foldl_nil] at ih ⊢
    exact distinct_step ih e

/-- **Which offers sweep.** At every point of every history, an offer leaves no dead binding in the table
unless it is refused as malformed and there was one before. That shows in two ways: the table is as large
as the number of names that resolve, and the next purge has nothing to remove. -/
theorem sweeps_history (events : List Event) (m : Method) (region : RegionId) :
    let s := (history events).1
    let offered := s.table.bind s.arena m region
    [offered.1.Swept s.arena,
      offered.1.size = {name | (offered.1.lookup? s.arena name).isSome = true}.ncard,
      (offered.1.purge s.arena).2 = 0,
      s.table.Swept s.arena ∨ ∀ name reason, offered.2 ≠ .error (.malformed name reason)].TFAE := by
  intro s offered
  have hdistinct : offered.1.Distinct := (distinct_history events).bind s.arena m region
  tfae_have 2 ↔ 1 := hdistinct.size_eq_ncard_iff
  tfae_have 3 ↔ 1 := Table.purge_eq_zero_iff
  tfae_have 1 ↔ 4 := s.table.swept_bind_iff s.arena m region
  tfae_finish

/-- A region is released while `f` is bound to it, and another one is made. -/
def released : List Event :=
  [.add ⟨⟨0x1000, [0], .executable⟩, 1, []⟩, .bind ⟨"f", "()V", 0x1000⟩ 0, .release 0,
    .add ⟨⟨0x2000, [0], .executable⟩, 1, []⟩]

/-- A method without a name, offered for a living region, leaves the dead binding in its place: nothing
resolves, the table has one binding, and the next purge removes it. -/
theorem bind_nameless_released :
    let s := (history released).1
    let offered := s.table.bind s.arena ⟨"", "()V", 0x2000⟩ 1
    s.arena.alive 1 = true ∧ offered.2 = .error (.malformed "" "empty name") ∧
      ¬ offered.1.Swept s.arena ∧ offered.1.size = 1 ∧
      {name | (offered.1.lookup? s.arena name).isSome = true}.ncard = 0 ∧
      (offered.1.purge s.arena).2 = 1 := by
  intro s offered
  have hpurge : (offered.1.purge s.arena).2 = 1 := rfl
  have hdistinct : offered.1.Distinct := (distinct_history released).bind s.arena _ 1
  have hnone : {name | (offered.1.lookup? s.arena name).isSome = true} = ∅ := by
    ext name
    have hswept : (offered.1.sweep s.arena).bindings = [] := rfl
    simp only [Set.mem_ofPred_eq, hdistinct.lookup?_isSome_iff, hswept, List.map_nil, List.not_mem_nil,
      Set.mem_empty_iff_false]
  refine ⟨rfl, rfl, fun hswept => ?_, rfl, by rw [hnone, Set.ncard_empty], hpurge⟩
  rw [Table.purge_eq_zero_iff.2 hswept] at hpurge
  cases hpurge

end Registry

end Trampoline
