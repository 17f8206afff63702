import Trampoline.Dispatch

/-!
# Publication

Offering the stubs of a region to a receiver, which binds them one by one or refuses them.

* `Receiver`: what takes bindings, with a state of its own;
* `Receiver.table`, `Receiver.accepting`, `Receiver.refusing`, `Receiver.nth`: a dispatch table, one
  that takes everything, one that refuses some names, and one among several;
* `Publication`: which methods were bound and which were refused;
* `Receiver.publish`: the offer of methods in order. A refusal concerns one method alone.
-/

namespace Trampoline

/-- What takes bindings. It sees which regions live and answers each method once. -/
structure Receiver (σ : Type) where
  bind : Arena → σ → Method → RegionId → σ × Except Rejection Unit

/-- What became of the methods that were offered. -/
structure Publication where
  bound : List Method
  rejected : List (Method × Rejection)
  deriving DecidableEq

namespace Publication

/-- Nothing was offered. -/
def empty : Publication := ⟨[], []⟩

/-- The names that were refused. -/
def fallbacks (p : Publication) : List String := p.rejected.map (·.1.name)

/-- Whether every method was bound. -/
def isComplete (p : Publication) : Bool := p.rejected.isEmpty

/-- One more method and what became of it. -/
def record (p : Publication) (m : Method) : Except Rejection Unit → Publication
  | .ok () => { p with bound := p.bound ++ [m] }
  | .error e => { p with rejected := p.rejected ++ [(m, e)] }

end Publication

namespace Receiver

variable {σ : Type}

/-- A dispatch table. -/
def table : Receiver Table := ⟨Table.bind⟩

/-- A receiver that takes everything and keeps nothing. -/
def accepting : Receiver σ := ⟨fun _ s _ _ => (s, .ok ())⟩

/-- A receiver that refuses some names and passes the others on. -/
def refusing (names : String → Bool) (reason : String) (inner : Receiver σ) : Receiver σ :=
  ⟨fun a s m region =>
    if names m.name then (s, .error (.rejected m.name reason)) else inner.bind a s m region⟩

/-- The receiver of one among several states; a state that is not there takes everything. -/
def nth (i : Nat) (inner : Receiver σ) : Receiver (List σ) :=
  ⟨fun a states m region =>
    match states[i]? with
    | some s =>
      let (s', answer) := inner.bind a s m region
      (states.set i s', answer)
    | none => (states, .ok ())⟩

/-- Offer methods whose code lies in a region, in order. -/
def publish (r : Receiver σ) (a : Arena) (region : RegionId) (methods : List Method) (s : σ) :
    σ × Publication :=
  methods.foldl
    (fun (s, p) m =>
      let (s', answer) := r.bind a s m region
      (s', p.record m answer))
    (s, .empty)

end Receiver

end Trampoline
