import Mathlib.Data.List.Induction
import Mathlib.Logic.Function.Basic
import Mathlib.Tactic.ByContra
import Trampoline.UnitIndex.History
import Trampoline.UnitIndex.Lemmas

/-!
# Indices of units and their rosters

* `Tracker.Agrees`: the relation between an index and its roster, which every event preserves;
* `Tracker.Follows`, `follows_history`: an index answers as its roster and the living regions say.
-/

namespace Trampoline

namespace Tracker

/-- How an index stands to its roster: it has nothing that the roster has not, and all that still lives;
and the roster has nothing but regions that were made. -/
structure Agrees (t : Tracker) (d : Roster) : Prop where
  unique : t.index.Unique
  recorded : ∀ {u r}, (u, r) ∈ t.index.entries → d u = some r
  kept : ∀ {u r}, d u = some r → t.arena.alive r = true → (u, r) ∈ t.index.entries
  made : ∀ {u r}, d u = some r → ∃ region, t.arena.region? r = some region

namespace Agrees

variable {a a' : Arena} {i : UnitIndex} {d : Roster} {t : Tracker}

theorem empty : Agrees .empty fun _ => none where
  unique := UnitIndex.unique_empty
  recorded h := by cases h
  kept h := by cases h
  made h := by cases h

/-- Regions may come and go. -/
theorem of_precedes (h : Agrees ⟨a, i⟩ d) (hp : a.Precedes a') : Agrees ⟨a', i⟩ d where
  unique := h.unique
  recorded := h.recorded
  kept hd hlive := by
    obtain ⟨region, hregion⟩ := h.made hd
    exact h.kept hd ((hp _ _ hregion).2 hlive)
  made hd := by
    obtain ⟨region, hregion⟩ := h.made hd
    exact ⟨region, (hp _ _ hregion).1⟩

theorem remove (h : Agrees ⟨a, i⟩ d) (unit : UnitId) :
    Agrees ⟨a, (i.remove unit).1⟩ (Function.update d unit none) := by
  have hother : ∀ {u r}, Function.update d unit none u = some r → u ≠ unit ∧ d u = some r := by
    intro u r hu
    by_cases heq : u = unit
    · subst heq
      simp at hu
    · rw [Function.update_of_ne heq] at hu
      exact ⟨heq, hu⟩
  refine ⟨h.unique.remove unit, fun he => ?_, fun hd hlive => ?_, fun hd => h.made (hother hd).2⟩
  · obtain ⟨he, hne⟩ := UnitIndex.mem_remove.1 he
    rw [Function.update_of_ne hne]
    exact h.recorded he
  · obtain ⟨hne, hd⟩ := hother hd
    exact UnitIndex.mem_remove.2 ⟨h.kept hd hlive, hne⟩

theorem insert (h : Agrees ⟨a, i⟩ d) (unit : UnitId) {region : RegionId} (hlive : a.alive region = true) :
    Agrees ⟨a, i.insert unit region⟩ (Function.update d unit (some region)) := by
  have hcases : ∀ {u r}, Function.update d unit (some region) u = some r →
      u = unit ∧ r = region ∨ u ≠ unit ∧ d u = some r := by
    intro u r hu
    by_cases heq : u = unit
    · subst heq
      rw [Function.update_self] at hu
      exact .inl ⟨rfl, (Option.some.inj hu).symm⟩
    · rw [Function.update_of_ne heq] at hu
      exact .inr ⟨heq, hu⟩
  refine ⟨h.unique.insert unit region, fun he => ?_, fun hd halive => ?_, fun hd => ?_⟩
  · rcases UnitIndex.mem_insert.1 he with ⟨he, hne⟩ | ⟨rfl, rfl⟩
    · rw [Function.update_of_ne hne]
      exact h.recorded he
    · exact Function.update_self _ _ _
  · rcases hcases hd with ⟨rfl, rfl⟩ | ⟨hne, hd⟩
    · exact UnitIndex.mem_insert.2 (.inr ⟨rfl, rfl⟩)
    · exact UnitIndex.mem_insert.2 (.inl ⟨h.kept hd halive, hne⟩)
  · rcases hcases hd with ⟨rfl, rfl⟩ | ⟨hne, hd⟩
    · obtain ⟨r, hr⟩ := Option.isSome_iff_exists.1 hlive
      exact ⟨r, Arena.region?_of_get? hr⟩
    · exact h.made hd

/-- Dead entries may go at any time. -/
theorem prune (h : Agrees ⟨a, i⟩ d) : Agrees ⟨a, (i.prune a).1⟩ d where
  unique := h.unique.prune a
  recorded he := h.recorded (UnitIndex.mem_prune.1 he).1
  kept hd hlive := UnitIndex.mem_prune.2 ⟨h.kept hd hlive, hlive⟩
  made := h.made

/-- Every event keeps an index and its roster together. -/
theorem step (h : Agrees t d) (e : Event) : Agrees (t.step e) (d.step t e) := by
  cases e with
  | add r => exact h.of_precedes (t.arena.precedes_add r)
  | acquire region => exact h.of_precedes (t.arena.precedes_acquire region)
  | release region => exact h.of_precedes (t.arena.precedes_release region)
  | remove unit => exact h.remove unit
  | prune => exact h.prune
  | insert unit region =>
    by_cases hlive : t.arena.alive region = true
    · simp only [Tracker.step, Roster.step, if_pos hlive]
      exact h.insert unit hlive
    · simp only [Tracker.step, Roster.step, if_neg hlive]
      exact h

end Agrees

/-- Every index is together with its roster at every point of its history. -/
theorem agrees_history (events : List Event) : Agrees (history events).1 (history events).2 := by
  induction events using List.reverseRecOn with
  | nil => exact .empty
  | append_singleton events e ih =>
    simp only [history, List.foldl_append, List.foldl_cons, List.foldl_nil] at ih ⊢
    exact ih.step e

/-! ### Answers -/

/-- An index that answers as its roster and the living regions say. What it finds at an address does not
depend on the order of its entries. -/
structure Follows (t : Tracker) (d : Roster) : Prop where
  /-- A unit has the region with which it was entered last, while that lives. -/
  get : ∀ u r, t.index.get? t.arena u = some r ↔ d u = some r ∧ t.arena.alive r = true
  found : ∀ i : UnitIndex, i.entries.Perm t.index.entries → ∀ address u r,
    i.findByAddress? t.arena address = some (u, r) → t.index.get? t.arena u = some r ∧
      ∃ region, t.arena.get? r = some region ∧ region.contains address = true
  missing : ∀ i : UnitIndex, i.entries.Perm t.index.entries → ∀ address,
    i.findByAddress? t.arena address = none ↔ ¬ ∃ u r region, t.index.get? t.arena u = some r ∧
      t.arena.get? r = some region ∧ region.contains address = true
  live : (t.index.live t.arena).Pairwise (· < ·)
  mem_live : ∀ u, u ∈ t.index.live t.arena ↔ (t.index.get? t.arena u).isSome = true
  /-- Pruning says how many entries are dead, and changes no answer. -/
  count : (t.index.prune t.arena).2 = t.index.entries.countP fun e => !t.arena.alive e.2
  get_prune : ∀ u, (t.index.prune t.arena).1.get? t.arena u = t.index.get? t.arena u
  find_prune : ∀ i : UnitIndex, i.entries.Perm t.index.entries → ∀ address,
    (i.prune t.arena).1.findByAddress? t.arena address = i.findByAddress? t.arena address
  live_prune : (t.index.prune t.arena).1.live t.arena = t.index.live t.arena

theorem Agrees.follows {t : Tracker} {d : Roster} (h : Agrees t d) : Follows t d where
  get u r := by
    rw [h.unique.get?_eq_some_iff]
    constructor
    · rintro ⟨he, hlive⟩
      exact ⟨h.recorded he, hlive⟩
    · rintro ⟨hd, hlive⟩
      exact ⟨h.kept hd hlive, hlive⟩
  found i hperm address u r hfound := by
    obtain ⟨he, region, hregion, hin⟩ := UnitIndex.of_findByAddress? hfound
    refine ⟨h.unique.get?_eq_some_iff.2 ⟨hperm.mem_iff.1 he, Arena.alive_of_get? hregion⟩, ?_⟩
    exact ⟨region, hregion, hin⟩
  missing i hperm address := by
    rw [UnitIndex.findByAddress?_eq_none_iff]
    constructor
    · rintro hnone ⟨u, r, region, hget, hregion, hin⟩
      have he := hperm.mem_iff.2 (h.unique.get?_eq_some_iff.1 hget).1
      rw [hnone u r he region hregion] at hin
      cases hin
    · intro hnone u r he region hregion
      by_contra hin
      have hget := h.unique.get?_eq_some_iff.2 ⟨hperm.mem_iff.1 he, Arena.alive_of_get? hregion⟩
      exact hnone ⟨u, r, region, hget, hregion, by simpa using hin⟩
  live := h.unique.pairwise_live t.arena
  mem_live u := by
    simp only [UnitIndex.mem_live, Option.isSome_iff_exists, h.unique.get?_eq_some_iff]
  count := t.index.prune_count t.arena
  get_prune := h.unique.get?_prune t.arena
  find_prune i _ := i.findByAddress?_prune t.arena
  live_prune := t.index.live_prune t.arena

/-- An index answers as its roster and the living regions say, at every point of every history. -/
theorem follows_history (events : List Event) : Follows (history events).1 (history events).2 :=
  (agrees_history events).follows

end Tracker

end Trampoline
