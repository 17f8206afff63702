import Mathlib.Data.List.Nodup
import Trampoline.Arena.Lemmas
import Trampoline.UnitIndex

/-!
# What an index of units answers

An index with one entry for each unit at most, whatever the order of its entries.

* `UnitIndex.Unique`: no unit has two entries; `Unique.insert`, `Unique.remove`, `Unique.prune`;
* `mem_insert`, `mem_remove`, `mem_prune`: the entries after each change;
* `Unique.get?_eq_some_iff`, `of_findByAddress?`, `findByAddress?_eq_none_iff`, `mem_live`,
  `Unique.pairwise_live`: the answers in terms of the entries;
* `Returns`: a unit is among the answers; `Unique.of_returns`;
* `get?_prune`, `findByAddress?_prune`, `live_prune`: pruning changes no answer.
-/

namespace Trampoline

namespace UnitIndex

variable {i : UnitIndex} {a : Arena} {u unit : UnitId} {r region : RegionId}

/-- No unit has two entries. -/
def Unique (i : UnitIndex) : Prop := (i.entries.map (·.1)).Nodup

theorem unique_empty : Unique empty := List.nodup_nil

/-! ### Entries -/

theorem mem_remove : (u, r) ∈ (i.remove unit).1.entries ↔ (u, r) ∈ i.entries ∧ u ≠ unit := by
  simp [remove]

theorem mem_insert : (u, r) ∈ (i.insert unit region).entries ↔
    (u, r) ∈ i.entries ∧ u ≠ unit ∨ u = unit ∧ r = region := by
  simp [insert]

theorem mem_prune : (u, r) ∈ (i.prune a).1.entries ↔ (u, r) ∈ i.entries ∧ a.alive r = true := by
  simp [prune]

theorem Unique.remove (h : i.Unique) (unit : UnitId) : (i.remove unit).1.Unique :=
  h.sublist (List.filter_sublist.map _)

theorem Unique.prune (h : i.Unique) (a : Arena) : (i.prune a).1.Unique :=
  h.sublist (List.filter_sublist.map _)

theorem Unique.insert (h : i.Unique) (unit : UnitId) (region : RegionId) :
    (i.insert unit region).Unique := by
  have hfree : ∀ u ∈ (i.remove unit).1.entries.map (·.1), u ≠ unit := by
    intro u hu
    obtain ⟨⟨u, r⟩, he, rfl⟩ := List.mem_map.1 hu
    exact (mem_remove.1 he).2
  show (((i.remove unit).1.entries ++ [(unit, region)]).map (·.1)).Nodup
  rw [List.map_append]
  exact List.nodup_append.2 ⟨h.remove unit, List.nodup_singleton _, by simpa using hfree⟩

/-! ### Answers -/

theorem Unique.find?_eq_some_iff (h : i.Unique) : i.find? u = some r ↔ (u, r) ∈ i.entries := by
  obtain ⟨entries⟩ := i
  show entries.lookup u = some r ↔ (u, r) ∈ entries
  induction entries with
  | nil => simp
  | cons e entries ih =>
    obtain ⟨u', r'⟩ := e
    obtain ⟨hnew, hrest⟩ := List.nodup_cons.1 h
    by_cases heq : u = u'
    · subst heq
      have hnot : (u, r) ∉ entries := fun he => hnew (List.mem_map.2 ⟨_, he, rfl⟩)
      simp [hnot, eq_comm]
    · have hbeq : (u == u') = false := by simpa using heq
      simp only [List.lookup_cons, hbeq, ih hrest]
      simp [heq]

/-- A unit is answered with the region of its entry, if that lives. -/
theorem Unique.get?_eq_some_iff (h : i.Unique) :
    i.get? a u = some r ↔ (u, r) ∈ i.entries ∧ a.alive r = true := by
  rw [get?, Option.filter_eq_some_iff, h.find?_eq_some_iff]

/-- What is found at an address is an entry whose living region contains it. -/
theorem of_findByAddress? {address : Nat} (h : i.findByAddress? a address = some (u, r)) :
    (u, r) ∈ i.entries ∧ ∃ region, a.get? r = some region ∧ region.contains address = true := by
  refine ⟨List.mem_of_find?_eq_some h, ?_⟩
  simpa [Option.any_eq_true] using List.find?_some h

theorem findByAddress?_eq_none_iff {address : Nat} : i.findByAddress? a address = none ↔
    ∀ u r, (u, r) ∈ i.entries → ∀ region, a.get? r = some region → region.contains address = false := by
  simp [findByAddress?, List.find?_eq_none, Option.any_eq_true]

theorem mem_live : u ∈ i.live a ↔ ∃ r, (u, r) ∈ i.entries ∧ a.alive r = true := by
  simp [live, List.mem_mergeSort]

/-- An index returns a unit: it answers the unit with a region, it lists the unit, or it finds the unit
at an address in some order of its entries. -/
inductive Returns (i : UnitIndex) (a : Arena) (u : UnitId) : Prop
  | get (r : RegionId) (h : i.get? a u = some r)
  | found (i' : UnitIndex) (hperm : i'.entries.Perm i.entries) (address : Nat) (r : RegionId)
    (h : i'.findByAddress? a address = some (u, r))
  | listed (h : u ∈ i.live a)

/-- The living units are listed in strictly ascending order. -/
theorem Unique.pairwise_live (h : i.Unique) (a : Arena) : (i.live a).Pairwise (· < ·) := by
  have hsorted : (i.live a).Pairwise fun u u' => decide (u ≤ u') = true := by
    apply List.pairwise_mergeSort
    · intro u v w huv hvw
      simp only [decide_eq_true_eq] at huv hvw ⊢
      exact Nat.le_trans huv hvw
    · intro u v
      simpa using Nat.le_total u v
  have hnodup : (i.live a).Nodup :=
    (List.mergeSort_perm _ _).nodup_iff.2 (h.sublist (List.filter_sublist.map _))
  exact (hsorted.and hnodup).imp fun hle => Nat.lt_of_le_of_ne (of_decide_eq_true hle.1) hle.2

/-! ### Pruning -/

theorem Unique.get?_prune (h : i.Unique) (a : Arena) (u : UnitId) :
    (i.prune a).1.get? a u = i.get? a u := by
  apply Option.ext
  intro r
  rw [(h.prune a).get?_eq_some_iff, h.get?_eq_some_iff, mem_prune, and_assoc, and_self]

theorem findByAddress?_prune (i : UnitIndex) (a : Arena) (address : Nat) :
    (i.prune a).1.findByAddress? a address = i.findByAddress? a address := by
  simp only [findByAddress?, prune, List.find?_filter]
  congr 1
  funext e
  -- An entry with an address in its region lives anyway.
  cases hget : a.get? e.2 <;> simp [Arena.alive, hget]

theorem live_prune (i : UnitIndex) (a : Arena) : (i.prune a).1.live a = i.live a := by
  simp [live, prune, List.filter_filter]

theorem prune_count (i : UnitIndex) (a : Arena) :
    (i.prune a).2 = i.entries.countP fun e => !a.alive e.2 := by
  have := List.length_eq_countP_add_countP (fun e : UnitId × RegionId => a.alive e.2) (l := i.entries)
  simp only [prune, size, ← List.countP_eq_length_filter]
  simp only [Bool.not_eq_true, Bool.decide_eq_false] at this
  omega

end UnitIndex

end Trampoline
