import Trampoline.Session

/-!
# Histories of a session

What a session has gone through, whatever the system answered.

* `Session.Turn`, `Session.after`: a step with the system at that time, and the session after a sequence
  of turns; `Session.quiet`, `Session.placed`: turns with and without a place for a region;
* `Session.LaysOut`, `Session.MadeBy`: the region that a step makes, and where a region comes from;
* `Session.attached`: the units that were not released;
* `Session.Holder`, `Session.holders`: who holds a region, and how many do;
* `Session.GivesUp`: the steps with which one of them gives it up;
* `Session.Entered`: the regions with which a unit was entered in an index by hand;
* `Mapper.Avoids`, `Session.Fair`: a system that gives no place where a living region is.
-/

namespace Trampoline

/-- The system gives no place where a living region is. -/
def Mapper.Avoids (map : Mapper) (a : Arena) : Prop :=
  ∀ size base, map size = some base → ∀ id r, a.get? id = some r →
    base + size ≤ r.base ∨ r.base + r.size ≤ base

namespace Session

/-- A step, and what the system answers at the time of the step. -/
structure Turn where
  system : System
  step : Step

/-- A step for which the system gives no place. -/
def quiet (step : Step) : Turn := ⟨.granting 4096 fun _ => none, step⟩

/-- A step with a place for its region. -/
def placed (base : Nat) (step : Step) : Turn := ⟨.granting 4096 fun _ => some base, step⟩

/-- The session after one more turn. -/
def turn (s : Session) (t : Turn) : Session := (s.step t.system t.step).1

/-- The session after a sequence of turns. -/
def after (turns : List Turn) : Session := turns.foldl turn new

@[simp] theorem after_nil : after [] = new := rfl

@[simp] theorem after_append_singleton (turns : List Turn) (t : Turn) :
    after (turns ++ [t]) = (after turns).turn t := by
  simp [after]

/-- The region that a step lays out: that of a list of requests or that of a compiler's batch. -/
def LaysOut (s : Session) (t : Turn) (r : Region) : Prop :=
  match t.step with
  | .commit requests p settings => ∃ stubs,
    requests.mapM (Stub.ofRequest p settings.saver) = .ok stubs ∧
      Region.ofStubs t.system settings stubs = .ok r
  | .attach i _ => ∃ h b, s.compilers[i]? = some h ∧ h.compiler = .batch b ∧
    Region.ofStubs t.system b.settings b.pending = .ok r
  | _ => False

/-- A region was laid out in one of the turns, under the next number at that time. -/
def MadeBy (turns : List Turn) (id : RegionId) (r : Region) : Prop :=
  ∃ before t later, turns = before ++ t :: later ∧ (after before).arena.slots.length = id ∧
    (after before).LaysOut t r

/-- The units that were not released, in order. -/
def unreleased (units : List UnitHandle) : List LinkedUnit :=
  (units.filter fun u => !u.released).map (·.unit)

/-- The units that were attached and not released, in the order in which they were attached. -/
def attached (s : Session) : List LinkedUnit := unreleased s.units

/-- Who holds a region: the session by a handle, its unit until that is released, or a guard that was
kept. -/
inductive Holder (s : Session) (id : RegionId) : Prop
  | handle (h : id ∈ s.held)
  | unit (u : UnitHandle) (h : u ∈ s.units) (hreleased : u.released = false)
    (hregion : u.unit.region = id)
  | guard (g : Guard) (h : some g ∈ s.guards) (hregion : g.region = id)

/-- Whether a unit holds a region. -/
def UnitHandle.holds (u : UnitHandle) (id : RegionId) : Bool := !u.released && u.unit.region == id

/-- How many hold a region, each handle of the session counted for itself. -/
def holders (s : Session) (id : RegionId) : Nat :=
  s.held.count id + s.units.countP (·.holds id) +
    s.guards.countP fun g => g.any (·.region == id)

/-- A step gives up one hold on a region: that of a unit, of one handle of the session, or of a guard. -/
inductive GivesUp (s : Session) : Step → RegionId → Prop
  | unit (i : Nat) (u : UnitHandle) (h : s.units[i]? = some u) (hreleased : u.released = false) :
    GivesUp s (.release i) u.unit.region
  | handle (id : RegionId) (h : id ∈ s.held) : GivesUp s (.drop id) id
  | guard (i : Nat) (g : Guard) (h : s.guards[i]? = some (some g)) : GivesUp s (.dropGuard i) g.region

theorem MadeBy.append {turns : List Turn} {id : RegionId} {r : Region} (h : MadeBy turns id r)
    (more : List Turn) : MadeBy (turns ++ more) id r := by
  obtain ⟨before, t, later, rfl, hid, hlaid⟩ := h
  exact ⟨before, t, later ++ more, by simp, hid, hlaid⟩

/-- In one of the turns the session entered a unit in an index by hand, with a region of its choice. -/
def Entered (turns : List Turn) (choice : IndexChoice) (unit : UnitId) (region : RegionId) : Prop :=
  ∃ before t later i h, turns = before ++ t :: later ∧ t.step = .track choice i region ∧
    (after before).units[i]? = some h ∧ h.unit.id = unit

theorem Entered.append {turns : List Turn} {choice : IndexChoice} {unit : UnitId} {region : RegionId}
    (h : Entered turns choice unit region) (more : List Turn) :
    Entered (turns ++ more) choice unit region := by
  obtain ⟨before, t, later, i, u, rfl, hstep, hu, hid⟩ := h
  exact ⟨before, t, later ++ more, i, u, by simp, hstep, hu, hid⟩

/-- In no turn does the system give a place where a living region is. -/
def Fair (turns : List Turn) : Prop :=
  ∀ before t later, turns = before ++ t :: later → t.system.map.Avoids (after before).arena

theorem fair_nil : Fair [] := by
  intro before t later h
  cases before <;> cases h

theorem fair_append_singleton {turns : List Turn} {t : Turn} :
    Fair (turns ++ [t]) ↔ Fair turns ∧ t.system.map.Avoids (after turns).arena := by
  constructor
  · intro h
    refine ⟨fun before t' later heq => h before t' (later ++ [t]) (by simp [heq]), h turns t [] rfl⟩
  · rintro ⟨h, ht⟩ before t' later heq
    rcases List.eq_nil_or_concat later with rfl | ⟨later, t'', rfl⟩
    · obtain ⟨rfl, hlast⟩ := List.append_inj' heq rfl
      cases hlast
      exact ht
    · rw [List.concat_eq_append, ← List.cons_append, ← List.append_assoc] at heq
      obtain ⟨rfl, -⟩ := List.append_inj' heq rfl
      exact h before t' later rfl

/-- A step that changes the shared index by hand. -/
def Step.meddles : Step → Bool
  | .track .shared _ _ | .untrack .shared _ => true
  | _ => false

end Session

end Trampoline
