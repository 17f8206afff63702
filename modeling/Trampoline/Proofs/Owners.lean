import Mathlib.Data.List.Induction
import Mathlib.Data.List.Sort
import Mathlib.Data.Prod.Basic
import Mathlib.Tactic.ByContra
import Trampoline.Proofs.Attachment
import Trampoline.Proofs.Lifetimes
import Trampoline.Proofs.Units

/-!
# Owners of code

When nobody but the units themselves changes the shared index and no region is placed on a living one,
the index is the list of the attached units, and every address has one owner at most.

* `Arena.Apart`: living regions do not overlap; `Change.get?_cases`, `apart_after`;
* `Session.Mirrors`: the shared index has the attached units, in order; `mirrors_after`;
* `Session.Serves`: what the shared index answers; `serves_after`;
* `UnitIndex.answers`: what an index answers, in any hands and in those of the units.
-/

namespace Trampoline

/-- Living regions do not overlap. -/
def Arena.Apart (a : Arena) : Prop :=
  ∀ id id' r r', id ≠ id' → a.get? id = some r → a.get? id' = some r' →
    r.base + r.size ≤ r'.base ∨ r'.base + r'.size ≤ r.base

/-- An address lies in one living region at most. -/
theorem Arena.Apart.eq_of_contains {a : Arena} (h : a.Apart) {id id' : RegionId} {r r' : Region}
    {address : Nat} (hr : a.get? id = some r) (hr' : a.get? id' = some r')
    (hin : r.contains address = true) (hin' : r'.contains address = true) : id = id' := by
  by_contra hne
  have hapart := h id id' r r' hne hr hr'
  simp only [Region.contains, Pages.contains, Bool.and_eq_true, decide_eq_true_eq] at hin hin'
  simp only [Region.base, Region.size] at hapart
  omega

namespace Session

variable {s s' : Session} {t : Turn}

/-! ### Living regions -/

/-- What a turn lays out is where the system put it. -/
theorem LaysOut.map_eq {r : Region} (h : s.LaysOut t r) : t.system.map r.size = some r.base := by
  obtain ⟨sys, step⟩ := t
  cases step with
  | commit requests p settings =>
    obtain ⟨stubs, -, hr⟩ := h
    exact Region.map_of_ofStubs hr
  | attach i receiver =>
    obtain ⟨handle, b, -, -, hr⟩ := h
    exact Region.map_of_ofStubs hr
  | _ => exact h.elim

/-- A region that lives after a turn lived before it, or the turn laid it out. -/
theorem Change.get?_cases (h : Change s t s') {id : RegionId} {r : Region}
    (hr : s'.arena.get? id = some r) :
    s.arena.get? id = some r ∨ id = s.arena.slots.length ∧ s.LaysOut t r := by
  rcases h.region?_cases (Arena.region?_of_get? hr) with hbefore | hnew
  · have hlive := (h.precedes id r hbefore).2 (Arena.alive_of_get? hr)
    exact .inl ((Arena.get?_of_alive hlive).trans hbefore)
  · exact .inr hnew

/-- **Living regions stay apart** when the system gives no place where one is. -/
theorem Change.apart (hchange : Change s t s') (h : s.arena.Apart) (havoids : t.system.map.Avoids s.arena) :
    s'.arena.Apart := by
  intro id id' r r' hne hr hr'
  rcases hchange.get?_cases hr with hold | ⟨rfl, hlaid⟩ <;>
    rcases hchange.get?_cases hr' with hold' | ⟨rfl, hlaid'⟩
  · exact h id id' r r' hne hold hold'
  · exact (havoids r'.size r'.base hlaid'.map_eq id r hold).symm
  · exact havoids r.size r.base hlaid.map_eq id' r' hold'
  · exact absurd rfl hne

theorem apart_after {turns : List Turn} (hfair : Fair turns) : (after turns).arena.Apart := by
  induction turns using List.reverseRecOn with
  | nil => exact fun id id' r r' _ hr => by cases hr
  | append_singleton turns t ih =>
    obtain ⟨hfair, havoids⟩ := fair_append_singleton.1 hfair
    rw [after_append_singleton]
    exact (change_turn _ t).apart (ih hfair) havoids

/-! ### The units that are attached -/

theorem mem_unreleased {units : List UnitHandle} {unit : LinkedUnit} :
    unit ∈ unreleased units ↔ ∃ u ∈ units, u.released = false ∧ u.unit = unit := by
  simp [unreleased, and_assoc]

theorem unreleased_cons (u : UnitHandle) (units : List UnitHandle) :
    unreleased (u :: units) =
      if u.released then unreleased units else u.unit :: unreleased units := by
  cases hreleased : u.released <;> simp [unreleased, hreleased]

/-- A unit that is released is no longer among the unreleased ones. -/
theorem unreleased_set {units : List UnitHandle} {i : Nat} {u : UnitHandle}
    (hnodup : (units.map fun u => u.unit.id).Nodup) (hi : units[i]? = some u) :
    unreleased (units.set i { u with released := true }) =
      (unreleased units).filter fun unit => unit.id != u.unit.id := by
  induction units generalizing i with
  | nil => cases hi
  | cons v units ih =>
    obtain ⟨hnew, hnodup⟩ := List.nodup_cons.1 hnodup
    cases i with
    | zero =>
      cases hi
      have hothers : ((unreleased units).filter fun unit => unit.id != u.unit.id) = unreleased units := by
        refine List.filter_eq_self.2 fun unit hunit => bne_iff_ne.2 fun heq => hnew ?_
        obtain ⟨w, hw, -, rfl⟩ := mem_unreleased.1 hunit
        exact List.mem_map.2 ⟨w, hw, heq⟩
      rw [List.set_cons_zero, unreleased_cons, unreleased_cons]
      cases u.released <;> simp [hothers]
    | succ i =>
      have hne : v.unit.id ≠ u.unit.id := fun heq =>
        hnew (List.mem_map.2 ⟨u, List.mem_of_getElem? hi, heq.symm⟩)
      rw [List.set_cons_succ, unreleased_cons, unreleased_cons, ih hnodup hi]
      cases v.released <;> simp [hne]

/-- A unit holds its region until it is released. -/
theorem Counted.alive_of_attached (h : Counted s) {unit : LinkedUnit} (hunit : unit ∈ s.attached) :
    s.arena.alive unit.region = true := by
  obtain ⟨u, hu, hreleased, rfl⟩ := mem_unreleased.1 hunit
  exact h.alive_iff_holder.2 (.unit u hu hreleased rfl)

namespace Numbered

variable {unit unit' : LinkedUnit}

/-- Of the attached units no two have one region. -/
theorem eq_of_region_eq (h : Numbered s) (hunit : unit ∈ s.attached) (hunit' : unit' ∈ s.attached)
    (hregion : unit.region = unit'.region) : unit = unit' := by
  obtain ⟨u, hu, -, rfl⟩ := mem_unreleased.1 hunit
  obtain ⟨u', hu', -, rfl⟩ := mem_unreleased.1 hunit'
  rw [h.regions.eq_of_key_eq hu hu' hregion]

theorem lt_next_of_attached (h : Numbered s) (hunit : unit ∈ s.attached) :
    unit.id < s.linkage.nextUnit := by
  obtain ⟨u, hu, -, rfl⟩ := mem_unreleased.1 hunit
  exact h.ids.below u hu

theorem pairwise_attached (h : Numbered s) : (s.attached.map (·.id)).Pairwise (· < ·) := by
  have hsublist := (s.units.filter_sublist (p := fun u => !u.released)).map fun u => u.unit.id
  rw [attached, unreleased, List.map_map]
  exact h.ids.pairwise.sublist hsublist

end Numbered

/-- The shared index has the attached units with their regions, in the order in which they were
attached. -/
def Mirrors (s : Session) : Prop :=
  s.linkage.units.entries = s.attached.map fun unit => (unit.id, unit.region)

namespace Mirrors

theorem mem_entries (h : Mirrors s) {unit : UnitId} {region : RegionId} :
    (unit, region) ∈ s.linkage.units.entries ↔ ∃ u ∈ s.attached, u.id = unit ∧ u.region = region := by
  rw [h, List.mem_map]
  simp only [Prod.mk.injEq]

/-- No entry is that of a dead region. -/
theorem filter_alive (h : Mirrors s) (hcounted : Counted s) :
    (s.linkage.units.entries.filter fun e => s.arena.alive e.2) = s.linkage.units.entries := by
  refine List.filter_eq_self.2 fun e he => ?_
  obtain ⟨u, hu, -, hregion⟩ := h.mem_entries.1 he
  exact hregion ▸ hcounted.alive_of_attached hu

end Mirrors

/-- **The shared index stays the list of the attached units** if only units change it. -/
theorem Mirrors.change (h : Mirrors s) (hcounted : Counted s) (hnumbered : Numbered s)
    (hmeddles : t.step.meddles = false) (hchange : Change s t s') : Mirrors s' := by
  cases hchange with
  | attach r compilers tables publication =>
    have hothers : (s.linkage.units.entries.filter fun e => e.1 != s.linkage.nextUnit) =
        s.linkage.units.entries := by
      refine List.filter_eq_self.2 fun e he => ?_
      obtain ⟨u, hu, hid, -⟩ := h.mem_entries.1 he
      simpa [← hid] using Nat.ne_of_lt (hnumbered.lt_next_of_attached hu)
    show _ ++ _ = List.map _ _
    rw [hothers, h]
    simp [attached, unreleased]
  | release i u hi =>
    show s.linkage.units.entries.filter _ = (unreleased _).map _
    rw [h, unreleased_set (hnumbered.ids.pairwise.imp Nat.ne_of_lt) hi, List.filter_map]
    rfl
  | track choice i region u hstep =>
    cases choice with
    | shared => simp [hstep, Step.meddles] at hmeddles
    | own => exact h
  | untrack choice i u hstep =>
    cases choice with
    | shared => simp [hstep, Step.meddles] at hmeddles
    | own => exact h
  | prune choice =>
    cases choice with
    | shared => exact (h.filter_alive hcounted).trans h
    | own => exact h
  | _ => exact h

theorem mirrors_after {turns : List Turn} (hmeddles : ∀ t ∈ turns, t.step.meddles = false) :
    Mirrors (after turns) := by
  induction turns using List.reverseRecOn with
  | nil => rfl
  | append_singleton turns t ih =>
    rw [after_append_singleton]
    have ht := hmeddles t (List.mem_append_right _ (List.mem_singleton_self t))
    exact (ih fun t' ht' => hmeddles t' (List.mem_append_left _ ht')).change (counted_after turns)
      (numbered_after turns) ht (change_turn _ t)

/-! ### Answers -/

/-- What the shared index answers: for each attached unit its region, and nothing of any other. -/
structure Serves (s : Session) : Prop where
  /-- Each unit has a greater number than those before it. -/
  ascending : (s.units.map fun u => u.unit.id).Pairwise (· < ·)
  live : s.linkage.units.live s.arena = s.attached.map (·.id)
  get : ∀ unit region, s.linkage.units.get? s.arena unit = some region ↔
    ∃ u ∈ s.attached, u.id = unit ∧ u.region = region
  /-- The unit that is found at an address is the attached one whose region contains it, whatever the
  order of the entries; who else has code there, or held it once, does not matter. -/
  found : ∀ i : UnitIndex, i.entries.Perm s.linkage.units.entries → ∀ address unit region,
    i.findByAddress? s.arena address = some (unit, region) ↔
      ∃ u ∈ s.attached, u.id = unit ∧ u.region = region ∧
        ∃ r, s.arena.get? region = some r ∧ r.contains address = true
  prune : s.linkage.units.prune s.arena = (s.linkage.units, 0)

theorem Mirrors.serves (h : Mirrors s) (hcounted : Counted s) (hnumbered : Numbered s)
    (hindexed : Indexed s) (hapart : s.arena.Apart) : Serves s where
  ascending := hnumbered.ids.pairwise
  live := by
    refine (hindexed.shared.pairwise_live s.arena).eq_of_mem_iff hnumbered.pairwise_attached fun id => ?_
    rw [UnitIndex.mem_live, List.mem_map]
    constructor
    · rintro ⟨r, he, -⟩
      obtain ⟨u, hu, hid, -⟩ := h.mem_entries.1 he
      exact ⟨u, hu, hid⟩
    · rintro ⟨u, hu, rfl⟩
      exact ⟨u.region, h.mem_entries.2 ⟨u, hu, rfl, rfl⟩, hcounted.alive_of_attached hu⟩
  get unit region := by
    rw [hindexed.shared.get?_eq_some_iff, h.mem_entries]
    refine and_iff_left_of_imp ?_
    rintro ⟨u, hu, -, rfl⟩
    exact hcounted.alive_of_attached hu
  found i hperm address unit region := by
    constructor
    · intro hfound
      obtain ⟨he, hcovers⟩ := UnitIndex.of_findByAddress? hfound
      obtain ⟨u, hu, hid, hregion⟩ := h.mem_entries.1 (hperm.mem_iff.1 he)
      exact ⟨u, hu, hid, hregion, hcovers⟩
    · rintro ⟨u, hu, rfl, rfl, r, hr, hin⟩
      cases hfound : i.findByAddress? s.arena address with
      | none =>
        have he := hperm.mem_iff.2 (h.mem_entries.2 ⟨u, hu, rfl, rfl⟩)
        rw [UnitIndex.findByAddress?_eq_none_iff.1 hfound _ _ he r hr] at hin
        cases hin
      | some e =>
        -- Two entries that cover the address have one region, and so they are those of one unit.
        obtain ⟨he, r', hr', hin'⟩ := UnitIndex.of_findByAddress? hfound
        obtain ⟨u', hu', hid, hregion⟩ := h.mem_entries.1 (hperm.mem_iff.1 he)
        have hsame := hnumbered.eq_of_region_eq hu' hu
          (hregion.trans (hapart.eq_of_contains hr' hr hin' hin))
        rw [hsame] at hid hregion
        rw [← Prod.mk.eta (p := e), ← hid, ← hregion]
  prune := by
    have hkept := h.filter_alive hcounted
    simp [UnitIndex.prune, UnitIndex.size, hkept]

/-- **The shared index serves the units that are attached**, if only units change it and the system gives
no place where a living region is. -/
theorem serves_after {turns : List Turn} (hfair : Fair turns)
    (hmeddles : ∀ t ∈ turns, t.step.meddles = false) : Serves (after turns) :=
  (mirrors_after hmeddles).serves (counted_after turns) (numbered_after turns) (indexed_after turns)
    (apart_after hfair)

end Session

/-- **What an index of units answers.** An index in any hands answers as its roster and the living regions
say; the one that only units enter and leave serves exactly the units that are attached, which are numbered
upwards and listed in the order in which they were attached. -/
theorem UnitIndex.answers :
    (∀ events, Tracker.Follows (Tracker.history events).1 (Tracker.history events).2) ∧
    ∀ turns, Session.Fair turns → (∀ t ∈ turns, t.step.meddles = false) →
      Session.Serves (Session.after turns) ∧
        ∀ later, (Session.after turns).units.map (·.unit) <+:
          (Session.after (turns ++ later)).units.map (·.unit) :=
  ⟨Tracker.follows_history, fun turns hfair hmeddles =>
    ⟨Session.serves_after hfair hmeddles, Session.units_after turns⟩⟩

namespace Session

theorem Fair.append_quiet {turns : List Turn} (h : Fair turns) (steps : List Step) :
    Fair (turns ++ steps.map quiet) := by
  induction steps using List.reverseRecOn with
  | nil => simpa using h
  | append_singleton steps step ih =>
    rw [List.map_append, ← List.append_assoc]
    exact fair_append_singleton.2 ⟨ih, fun size base hbase => by cases hbase⟩

/-- A place behind all regions that were ever made. -/
theorem Fair.append_placed {turns : List Turn} (h : Fair turns) {base : Nat} (step : Step)
    (hbase : ((after turns).arena.slots.all fun slot =>
      slot.region.base + slot.region.size ≤ base) = true) :
    Fair (turns ++ [placed base step]) := by
  refine fair_append_singleton.2 ⟨h, fun size base' heq id r hr => ?_⟩
  cases heq
  obtain ⟨slot, hslot, -, rfl⟩ := Arena.get?_eq_some_iff.1 hr
  exact .inr (by simpa using List.all_eq_true.1 hbase slot (List.mem_of_getElem? hslot))

/-- Two units are made, of `f` and `g`, and the first one is released while a guard of it is kept. -/
def releasedEarly : List Turn :=
  [.newCompiler .direct .host ⟨true, 16, 0x5000, some 64⟩, .newTable,
    .compile 0 (Linkage.plainRequest "f")].map quiet ++
  [placed 0x10000 (.attach 0 ⟨some 0, .none, ""⟩)] ++
  [.lookup 0 "f" true, .compile 0 (Linkage.plainRequest "g")].map quiet ++
  [placed 0x20000 (.attach 0 ⟨some 0, .none, ""⟩)] ++ [.release 0].map quiet

theorem fair_releasedEarly : Fair releasedEarly := by
  unfold releasedEarly
  refine .append_quiet (.append_placed (.append_quiet (.append_placed ?_ _ ?first) _) _ ?second) _
  case first => decide +kernel
  case second => decide +kernel
  simpa using fair_nil.append_quiet [_, _, _]

/-- The guard keeps the first region alive, and the index knows the second unit only. -/
theorem serves_releasedEarly :
    Serves (after releasedEarly) ∧ (after releasedEarly).arena.alive 0 = true ∧
      (after releasedEarly).linkage.units.live (after releasedEarly).arena = [2] := by
  have hmeddles : ∀ t ∈ releasedEarly, t.step.meddles = false := by decide +kernel
  have hattached : (after releasedEarly).attached.map (·.id) = [2] := by decide +kernel
  have ⟨hserves, _⟩ := UnitIndex.answers.2 releasedEarly fair_releasedEarly hmeddles
  exact ⟨hserves, by decide +kernel, hserves.live.trans hattached⟩

end Session

end Trampoline
