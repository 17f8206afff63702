import Trampoline.Linkage

/-!
# Steps of a session

What can be asked in a session, and what is answered. Compilers, regions, units, tables and guards
are numbered from zero, each kind in the order in which they were made.

* `Location`: an address, or a place relative to a region;
* `ReceiverChoice`: who takes the bindings of a publication;
* `Step`: what is asked;
* `MethodView`, `PublicationView`, `GuardView`: published methods as seen from the start of a region;
* `Answer`: what is answered.
-/

namespace Trampoline

namespace Session

/-- An address, or a place relative to the start of a region. -/
inductive Location
  | absolute (address : Int)
  | inRegion (region : RegionId) (delta : Int)

/-- A set of names. -/
inductive NameSet
  | none
  | all
  | these (names : List String)

/-- Whether a name belongs to the set. -/
def NameSet.contains : NameSet → String → Bool
  | none, _ => false
  | all, _ => true
  | these names, name => names.elem name

/-- Who takes the bindings of a publication: some names are refused, and the others go to a table or,
without one, are taken by nobody in particular. -/
structure ReceiverChoice where
  table : Option Nat
  refused : NameSet
  reason : String

/-- The receiver that was chosen. -/
def ReceiverChoice.receiver (c : ReceiverChoice) : Receiver (List Table) :=
  Receiver.refusing c.refused.contains c.reason
    (match c.table with
      | some t => Receiver.table.nth t
      | none => Receiver.accepting)

/-- How a compiler is made. -/
inductive CompilerKind
  /-- The one that fits the platform and the settings. -/
  | select
  /-- One for System V platforms, whatever the platform is. -/
  | direct
  /-- One that refuses everything because of the platform. -/
  | unsupported
  /-- One that refuses everything because stubs are switched off. -/
  | disabled
  deriving DecidableEq

/-- An index of units: the one that linking keeps, or one of the session's own. -/
inductive IndexChoice
  | shared
  | own
  deriving DecidableEq

/-- What is asked. -/
inductive Step
  | newCompiler (kind : CompilerKind) (p : Platform) (settings : Settings)
  /-- The settings of a compiler. -/
  | settings (compiler : Nat)
  | callShape (compiler : Nat) (signature : Signature)
  | compile (compiler : Nat) (request : Request)
  | pending (compiler : Nat)
  | attach (compiler : Nat) (receiver : ReceiverChoice)
  | unit (unit : Nat)
  | release (unit : Nat)
  /-- A region of requests, without a compiler and without a unit. -/
  | commit (requests : List Request) (p : Platform) (settings : Settings)
  /-- One more handle on a region. -/
  | share (region : RegionId)
  /-- A handle on a region, if the session has none. -/
  | hold (region : RegionId)
  /-- One handle less. -/
  | drop (region : RegionId)
  | alive (region : RegionId)
  | region (region : RegionId)
  /-- The stub of a name in a region. -/
  | code (region : RegionId) (name : String)
  /-- What lies at a place. -/
  | at (region : RegionId) (location : Location)
  | register (region : RegionId) (receiver : ReceiverChoice)
  | newTable
  | bind (table : Nat) (region : RegionId) (name descriptor : String) (location : Location)
  /-- A name in a table; the guard is kept or given up at once. -/
  | lookup (table : Nat) (name : String) (keep : Bool)
  | unbind (table : Nat) (name : String)
  | purge (table : Nat)
  | tableSize (table : Nat)
  | guard (guard : Nat)
  | cloneGuard (guard : Nat)
  | dropGuard (guard : Nat)
  /-- Enter a unit in an index with a region. -/
  | track (index : IndexChoice) (unit : Nat) (region : RegionId)
  | untrack (index : IndexChoice) (unit : Nat)
  | tracked (index : IndexChoice) (unit : Nat)
  | find (index : IndexChoice) (location : Location)
  | index (index : IndexChoice)
  | prune (index : IndexChoice)
  | setErrorCode (code : BitVec 32)
  | errorCode
  /-- Save the system's error code. -/
  | saveErrorCode (systemCode : BitVec 32)
  /-- Save the system's error code in a thread of its own. -/
  | threadErrorCode (systemCode : BitVec 32)

/-- A method as seen from the start of its region. -/
structure MethodView where
  name : String
  descriptor : String
  offset : Nat

/-- A method as seen from an address. -/
def MethodView.ofMethod (origin : Nat) (m : Method) : MethodView :=
  ⟨m.name, m.descriptor, m.address - origin⟩

/-- A publication as seen from the start of its region. -/
structure PublicationView where
  bound : List MethodView
  rejected : List (MethodView × Rejection)
  fallbacks : List String
  complete : Bool

/-- A publication as seen from an address. -/
def PublicationView.ofPublication (origin : Nat) (p : Publication) : PublicationView where
  bound := p.bound.map (MethodView.ofMethod origin)
  rejected := p.rejected.map fun (m, e) => (MethodView.ofMethod origin m, e)
  fallbacks := p.fallbacks
  complete := p.isComplete

/-- A guard as seen from the start of its region. -/
structure GuardView where
  method : MethodView
  region : RegionId
  /-- Where a call through the guard goes. -/
  entryOffset : Nat

/-- What is answered. -/
inductive Answer
  /-- The step names something that was never made. -/
  | absent
  /-- The region that the step is about is dead. -/
  | dead
  /-- The step failed. -/
  | failed (e : CommitFailure)
  | newCompiler (compiler : Nat)
  | settings (settings : Option Settings)
  | callShape (shape : Except Refusal CallShape) (accepted : Bool)
  | compiled (result : Except BuildError Unit) (pending : List String)
  | pending (stubs : List Stub)
  /-- There was nothing to attach. -/
  | nothingAttached
  | attached (unit : Nat) (region : RegionId) (id : UnitId) (publication : PublicationView)
  | releasedUnit
  | unit (id : UnitId) (region : RegionId) (bound : List MethodView) (fallbacks : List String)
      (stubs : Nat)
  | released (done : Bool)
  | committed (region : RegionId) (stubs : Nat)
  | alive (alive : Bool)
  | dropped (held alive : Bool)
  | region (region : Region)
  | code (entry : Option Region.Entry) (offset entryOffset : Option Nat) (code : Option Bytes)
  | at (contains : Bool) (stub : Option String)
  | published (publication : PublicationView)
  | newTable (table : Nat)
  | bound (result : Except Rejection Unit)
  | lookup (found : Option GuardView) (kept : Option Nat)
  | removed (done : Bool)
  | purged (count : Nat)
  | size (size : Nat)
  | guard (found : Option GuardView)
  | newGuard (guard : Nat)
  | droppedGuard (done : Bool)
  | tracked (region : Option RegionId)
  | found (unit : Option (UnitId × RegionId))
  | index (live : List UnitId) (size : Nat)
  | done
  | errorCode (code : BitVec 32)
  | threadErrorCode (before after own : BitVec 32)

end Session

end Trampoline
