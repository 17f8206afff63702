import Trampoline.Compiler

/-!
# Histories of a batch

* `Batch.Event`, `Batch.step`: what a compiler can be asked to do;
* `Batch.accepted`: how the requests with stubs in the batch follow its answers;
* `Batch.history`: a batch and these requests after any sequence of events.
-/

namespace Trampoline

namespace Batch

/-- What a compiler can be asked to do. -/
inductive Event
  | compile (r : Request)
  | commit (sys : System)

/-- The batch after an event. -/
def step (b : Batch) : Event → Batch
  | .compile r => (b.compile r).1
  | .commit sys => (b.commit sys).1

/-- The requests that were taken since the batch was last started again. Laying it out starts it again,
and so does every error but that of a name that is used. -/
def accepted (requests : List Request) (b : Batch) : Event → List Request
  | .compile r =>
    match (b.compile r).2 with
    | .ok () => requests ++ [r]
    | .error (.duplicate _) => requests
    | .error _ => []
  | .commit _ => []

/-- A batch and the requests that it took, after a sequence of events. -/
def history (p : Platform) (s : Settings) (events : List Event) : Batch × List Request :=
  events.foldl (fun (b, requests) e => (b.step e, accepted requests b e)) (.new p s, [])

end Batch

end Trampoline
