import Mathlib.Logic.Function.Basic
import Trampoline.UnitIndex

/-!
# Histories of an index of units

What can happen to an index and to the regions that it names, and what an index should answer.

* `Tracker`: an index among the regions; `Tracker.Event`, `Tracker.step`: one thing that happens;
* `Roster`: the region with which each unit was entered last; `Roster.step`: how it follows the events;
* `Tracker.history`: an index and its roster after any sequence of events.

A roster forgets a unit only when the unit is entered anew or removed. It knows nothing of dead regions.
-/

namespace Trampoline

/-- An index of units and the regions. -/
structure Tracker where
  arena : Arena
  index : UnitIndex

/-- The region with which each unit was entered last and not removed since. -/
abbrev Roster := UnitId → Option RegionId

namespace Tracker

/-- No regions and no units. -/
def empty : Tracker := ⟨.empty, .empty⟩

/-- What can happen to an index and to the regions. -/
inductive Event
  /-- A new region is made. -/
  | add (r : Region)
  /-- A region gets one more holder. -/
  | acquire (region : RegionId)
  /-- A holder gives up a region. -/
  | release (region : RegionId)
  /-- A unit is entered by someone who holds the region. -/
  | insert (unit : UnitId) (region : RegionId)
  | remove (unit : UnitId)
  | prune

/-- The effect of an event. Nobody holds a dead region, so no unit is entered with one. -/
def step (t : Tracker) : Event → Tracker
  | .add r => { t with arena := (t.arena.add r).1 }
  | .acquire region => { t with arena := t.arena.acquire region }
  | .release region => { t with arena := t.arena.release region }
  | .insert unit region =>
    if t.arena.alive region then { t with index := t.index.insert unit region } else t
  | .remove unit => { t with index := (t.index.remove unit).1 }
  | .prune => { t with index := (t.index.prune t.arena).1 }

end Tracker

/-- The roster records every unit that is entered or removed. -/
def Roster.step (d : Roster) (t : Tracker) : Tracker.Event → Roster
  | .insert unit region =>
    if t.arena.alive region then Function.update d unit (some region) else d
  | .remove unit => Function.update d unit none
  | _ => d

/-- An index and its roster after a sequence of events. -/
def Tracker.history (events : List Tracker.Event) : Tracker × Roster :=
  events.foldl (fun (t, d) e => (t.step e, d.step t e)) (.empty, fun _ => none)

end Trampoline
