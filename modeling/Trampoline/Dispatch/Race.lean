import Trampoline.Dispatch.History
import Trampoline.Publication
import Trampoline.Stub.Lemmas

/-!
# Racing publications

Several publishers offer the methods of their regions to one table. Each offer is a step of its own, and
the steps of the publishers come in any order, among whatever else happens to the regions.

* `Publisher`: a region, how many of its methods were offered, and what became of them;
* `Race`: publishers of one table among the regions; `Race.start`;
* `Race.Move`, `Race.move`, `Race.run`: one step, and a sequence of them;
* `Race.Publishes`, `Race.Wins`, `Race.Loses`, `Race.Finished`: how a race stands;
* `Region.Built`: a region that was laid out from stubs.
-/

namespace Trampoline

/-- The guard of a name in the table of a registry. -/
def Registry.resolve? (s : Registry) (name : String) : Option Guard := s.table.lookup? s.arena name

/-- Whether an event binds or unbinds a name. -/
def Registry.Event.rebinds : Registry.Event → Bool
  | .bind .. | .unbind _ => true
  | _ => false

/-- One who publishes a region. -/
structure Publisher where
  id : RegionId
  region : Region
  /-- How many of the region's methods were offered. -/
  offered : Nat
  /-- What became of them. -/
  report : Publication

/-- One more method was offered, and answered. -/
def Publisher.record (p : Publisher) (m : Method) (answer : Except Rejection Unit) : Publisher :=
  { p with offered := p.offered + 1, report := p.report.record m answer }

/-- Publishers of one table. -/
structure Race where
  registry : Registry
  publishers : List Publisher

/-- A region that was laid out from stubs. -/
def Region.Built (r : Region) : Prop :=
  ∃ sys settings stubs, (∀ s ∈ stubs, Stub.Emitted s) ∧ ofStubs sys settings stubs = .ok r

namespace Race

/-- Nothing was offered yet. -/
def start (s : Registry) (regions : List (RegionId × Region)) : Race :=
  ⟨s, regions.map fun (id, r) => ⟨id, r, 0, .empty⟩⟩

/-- What can happen in a race. -/
inductive Move
  /-- A publisher offers its next method. -/
  | offer (k : Nat)
  /-- Regions come and go, dead bindings are purged, or a name is looked up. -/
  | meanwhile (e : Registry.Event) (h : e.rebinds = false)

/-- A publisher offers its next method, if it has one left. -/
def offer (race : Race) (k : Nat) : Race :=
  match race.publishers[k]? with
  | none => race
  | some p =>
    match p.region.methods[p.offered]? with
    | none => race
    | some m =>
      let answer := (race.registry.table.bind race.registry.arena m p.id).2
      ⟨race.registry.step (.bind m p.id), race.publishers.set k (p.record m answer)⟩

/-- The race after one more move. -/
def move (race : Race) : Move → Race
  | .offer k => race.offer k
  | .meanwhile e _ => { race with registry := race.registry.step e }

/-- The race after a sequence of moves. -/
def run (race : Race) (moves : List Move) : Race := moves.foldl move race

@[simp] theorem run_nil (race : Race) : race.run [] = race := rfl

@[simp] theorem run_append_singleton (race : Race) (moves : List Move) (m : Move) :
    race.run (moves ++ [m]) = (race.run moves).move m := by
  simp [run]

/-- A publisher has a method of the name. -/
def Publishes (race : Race) (k : Nat) (name : String) : Prop :=
  ∃ p, race.publishers[k]? = some p ∧ name ∈ p.region.methods.map Method.name

/-- A publisher's report lists the name as bound. -/
def Wins (race : Race) (k : Nat) (name : String) : Prop :=
  ∃ p, race.publishers[k]? = some p ∧ name ∈ p.report.bound.map Method.name

/-- A publisher's report lists the name as rejected because it is bound already, and not as bound. -/
def Loses (race : Race) (k : Nat) (name : String) : Prop :=
  ∃ p, race.publishers[k]? = some p ∧ name ∉ p.report.bound.map Method.name ∧
    ∃ m ∈ p.region.methods, m.name = name ∧ (m, .duplicate name) ∈ p.report.rejected

/-- Every publisher has offered all its methods. -/
def Finished (race : Race) : Prop :=
  ∀ p ∈ race.publishers, p.offered = p.region.methods.length

end Race

end Trampoline
