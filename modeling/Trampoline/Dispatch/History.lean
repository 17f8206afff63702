import Mathlib.Logic.Function.Basic
import Trampoline.Dispatch

/-!
# Histories of a dispatch table

What can happen to a table and to the regions that it names, and what a table should answer.

* `Registry`: a table among the regions; `Registry.Event`, `Registry.step`: one thing that happens;
* `Directory`: what was bound last under each name; `Directory.step`: how it follows the answers;
* `Registry.history`: a table and its directory after any sequence of events;
* `Method.Sensible`: what a binding needs besides a free name.

A directory forgets a binding only when its name is bound anew or unbound. It knows nothing of dead
regions or of the times at which a table drops their bindings.
-/

namespace Trampoline

/-- A dispatch table and the regions. -/
structure Registry where
  arena : Arena
  table : Table

/-- What was bound last under each name and not unbound since. -/
abbrev Directory := String → Option Binding

namespace Registry

/-- No regions and no bindings. -/
def empty : Registry := ⟨.empty, .empty⟩

/-- What can happen to a table and to the regions. -/
inductive Event
  /-- A new region is made. -/
  | add (r : Region)
  /-- A region gets one more holder. -/
  | acquire (region : RegionId)
  /-- A holder gives up a region. -/
  | release (region : RegionId)
  | bind (m : Method) (region : RegionId)
  | unbind (name : String)
  | purge
  /-- A name is looked up; the guard, if there is one, holds its region. -/
  | lookup (name : String)

/-- The effect of an event. -/
def step (s : Registry) : Event → Registry
  | .add r => { s with arena := (s.arena.add r).1 }
  | .acquire region => { s with arena := s.arena.acquire region }
  | .release region => { s with arena := s.arena.release region }
  | .bind m region => { s with table := (s.table.bind s.arena m region).1 }
  | .unbind name => { s with table := (s.table.unbind name).1 }
  | .purge => { s with table := (s.table.purge s.arena).1 }
  | .lookup name =>
    match s.table.lookup? s.arena name with
    | some g => { s with arena := s.arena.acquire g.region }
    | none => s

end Registry

/-- The directory follows the answers of the table: only a binding that was taken is recorded. -/
def Directory.step (d : Directory) (s : Registry) : Registry.Event → Directory
  | .bind m region =>
    match (s.table.bind s.arena m region).2 with
    | .ok () => Function.update d m.name (some ⟨m, region⟩)
    | .error _ => d
  | .unbind name => Function.update d name none
  | _ => d

/-- A table and its directory after a sequence of events. -/
def Registry.history (events : List Registry.Event) : Registry × Directory :=
  events.foldl (fun (s, d) e => (s.step e, d.step s e)) (.empty, fun _ => none)

/-- What a binding needs besides a free name: a name, a descriptor with parameters in parentheses and
something after them, and an address in its region. -/
structure Method.Sensible (m : Method) (a : Arena) (region : RegionId) : Prop where
  name : m.name ≠ ""
  opens : m.descriptor.toList.head? = some '('
  closes : ')' ∈ m.descriptor.toList
  result : m.descriptor.toList.getLast? ≠ some ')'
  address : m.address ≠ 0
  inside : ∃ r, a.get? region = some r ∧ r.contains m.address = true

end Trampoline
