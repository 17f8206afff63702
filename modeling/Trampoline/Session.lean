import Trampoline.ErrorCode
import Trampoline.Session.Step

/-!
# Sessions

A session makes compilers, regions, units, tables and guards and uses them step by step.

* `Session`: what has been made so far;
* `Session.resolve?`: the address of a place;
* `Session.step`: the answer to one step, whatever the system answers meanwhile;
* `Session.run`: the answers to a sequence of steps.

A region is made by `commit`, which gives the session a handle on it, or by `attach`, where only the unit
holds it. It lives while the session has a handle on it, or its unit or a guard holds it, and a step about
a dead region answers just that.
-/

namespace Trampoline

/-- A compiler and the settings that it lets one read. -/
structure Session.CompilerHandle where
  compiler : Compiler
  settings : Option Settings

/-- A unit, which may have been released. -/
structure Session.UnitHandle where
  unit : LinkedUnit
  released : Bool

/-- What has been made in a session. -/
structure Session where
  linkage : Linkage
  compilers : List Session.CompilerHandle
  units : List Session.UnitHandle
  tables : List Table
  /-- The guards that were made; `none` is one that was given up. -/
  guards : List (Option Guard)
  /-- The regions on which the session has a handle, one entry for each handle. -/
  held : List RegionId
  /-- The session's own index of units. -/
  ownUnits : UnitIndex
  /-- The saved error code of the session's thread. -/
  errorCode : ErrorCode

namespace Session

/-- A session in which nothing has been made. -/
def new : Session := ⟨.new, [], [], [], [], [], .empty, .fresh⟩

/-- The regions of a session. -/
def arena (s : Session) : Arena := s.linkage.arena

/-- The session with other regions. -/
def withArena (s : Session) (a : Arena) : Session :=
  { s with linkage := { s.linkage with arena := a } }

/-! ### Places -/

/-- An address reduced to a machine word. -/
def wrap (n : Int) : Nat := (n % wordLimit).toNat

/-- The address of a place. While some region lives, a place in a dead one has none; when none lives,
the old address of the region counts. -/
def resolve? (s : Session) : Location → Option Nat
  | .absolute n => some (wrap n)
  | .inRegion id delta =>
    if s.arena.alive id || !s.arena.anyAlive then
      (s.arena.base? id).map fun base => wrap (base + delta)
    else
      none

/-- What a step answers about a region if it lives. -/
def onRegion (s : Session) (id : RegionId) (f : Region → Session × Answer) : Session × Answer :=
  match s.arena.get? id with
  | some r => f r
  | none => (s, .dead)

/-- What a step answers about a place if it has an address. -/
def onLocation (s : Session) (l : Location) (f : Nat → Session × Answer) : Session × Answer :=
  match s.resolve? l with
  | some address => f address
  | none => (s, .dead)

/-! ### Compilers and units -/

/-- Make a compiler. -/
def newCompiler (s : Session) (kind : CompilerKind) (p : Platform) (settings : Settings) :
    Session × Answer :=
  let handle : CompilerHandle :=
    match kind with
    | .select => ⟨.select p settings, none⟩
    | .direct => ⟨.new p settings, some settings⟩
    | .unsupported => ⟨.forPlatform p, none⟩
    | .disabled => ⟨.off, none⟩
  ({ s with compilers := s.compilers ++ [handle] }, .newCompiler s.compilers.length)

/-- What a step answers about a compiler. -/
def onCompiler (s : Session) (i : Nat) (f : CompilerHandle → Session × Answer) :
    Session × Answer :=
  match s.compilers[i]? with
  | some h => f h
  | none => (s, .absent)

/-- The session with a compiler changed. -/
def setCompiler (s : Session) (i : Nat) (h : CompilerHandle) (c : Compiler) : Session :=
  { s with compilers := s.compilers.set i { h with compiler := c } }

/-- Add the stub of a request to the batch of a compiler. -/
def compile (s : Session) (i : Nat) (r : Request) : Session × Answer :=
  s.onCompiler i fun h =>
    let (c, result) := h.compiler.compile r
    (s.setCompiler i h c, .compiled result (c.pending.map Stub.name))

/-- Whether the table of a receiver was made. -/
def hasReceiver (s : Session) (choice : ReceiverChoice) : Bool :=
  choice.table.all (· < s.tables.length)

/-- Lay out the batch of a compiler and publish it. -/
def attach (s : Session) (sys : System) (i : Nat) (choice : ReceiverChoice) : Session × Answer :=
  s.onCompiler i fun h =>
    if !s.hasReceiver choice then (s, .absent)
    else
      -- The compiler starts a new batch whether or not this one gets a region.
      let done := s.linkage.attach sys h.compiler choice.receiver s.tables
      let s' := { s.setCompiler i h done.compiler with
        linkage := done.linkage, tables := done.receiver }
      match done.answer with
      | .error e => (s', .failed e)
      | .ok none => (s', .nothingAttached)
      | .ok (some unit) =>
        let origin := (done.linkage.arena.base? unit.region).getD 0
        ({ s' with units := s.units ++ [⟨unit, false⟩] },
          .attached s.units.length unit.region unit.id (.ofPublication origin unit.publication))

/-- What a unit is. -/
def describeUnit (s : Session) (i : Nat) : Session × Answer :=
  match s.units[i]? with
  | none => (s, .absent)
  | some h =>
    if h.released then (s, .releasedUnit)
    else
      s.onRegion h.unit.region fun r =>
        let publication := h.unit.publication
        (s, .unit h.unit.id h.unit.region (publication.bound.map (MethodView.ofMethod r.base))
          publication.fallbacks r.entries.length)

/-- Give up a unit. -/
def release (s : Session) (i : Nat) : Session × Answer :=
  match s.units[i]? with
  | none => (s, .absent)
  | some h =>
    if h.released then (s, .released false)
    else
      ({ s with
          linkage := s.linkage.release h.unit
          units := s.units.set i { h with released := true } }, .released true)

/-! ### Regions -/

/-- Make the stubs of requests and lay them out. The first request that has no stub decides. -/
def commit (s : Session) (sys : System) (requests : List Request) (p : Platform)
    (settings : Settings) : Session × Answer :=
  match requests.mapM (Stub.ofRequest p settings.saver) with
  | .error e => (s, .failed (.build e))
  | .ok stubs =>
    match Region.ofStubs sys settings stubs with
    | .error e => (s, .failed e)
    | .ok r =>
      let (a, id) := s.arena.add r
      ({ s.withArena a with held := s.held ++ [id] }, .committed id r.entries.length)

/-- Take one more handle on a region that lives. -/
def share (s : Session) (id : RegionId) : Session × Answer :=
  if !s.arena.alive id then (s, .alive false)
  else ({ s.withArena (s.arena.acquire id) with held := s.held ++ [id] }, .alive true)

/-- Take a handle on a region that lives, unless there is one already. -/
def hold (s : Session) (id : RegionId) : Session × Answer :=
  if s.held.elem id then (s, .alive (s.arena.alive id)) else s.share id

/-- Give up one handle on a region. -/
def drop (s : Session) (id : RegionId) : Session × Answer :=
  if s.held.elem id then
    let a := s.arena.release id
    ({ s.withArena a with held := s.held.erase id }, .dropped true (a.alive id))
  else
    (s, .dropped false (s.arena.alive id))

/-- The stub of a name in a region. -/
def describeCode (s : Session) (id : RegionId) (name : String) : Session × Answer :=
  s.onRegion id fun r =>
    (s, .code (r.entry? name) ((r.addressOf? name).map (· - r.base))
      ((r.entryPoint? name).map (· - r.base)) (r.codeOf? name))

/-- What lies at a place. -/
def describeAt (s : Session) (id : RegionId) (l : Location) : Session × Answer :=
  s.onRegion id fun r =>
    s.onLocation l fun address =>
      (s, .at (r.contains address) ((r.stubAt? address).map Region.Entry.name))

/-- Publish the stubs of a region. -/
def register (s : Session) (id : RegionId) (choice : ReceiverChoice) : Session × Answer :=
  s.onRegion id fun r =>
    if !s.hasReceiver choice then (s, .absent)
    else
      let (tables, publication) := choice.receiver.publish s.arena id r.methods s.tables
      ({ s with tables }, .published (.ofPublication r.base publication))

/-! ### Tables and guards -/

/-- What a step answers about a table. -/
def onTable (s : Session) (i : Nat) (f : Table → Session × Answer) : Session × Answer :=
  match s.tables[i]? with
  | some t => f t
  | none => (s, .absent)

/-- The session with a table changed. -/
def setTable (s : Session) (i : Nat) (t : Table) : Session :=
  { s with tables := s.tables.set i t }

/-- Bind a method whose code lies in a region. -/
def bind (s : Session) (i : Nat) (id : RegionId) (name descriptor : String) (l : Location) :
    Session × Answer :=
  s.onRegion id fun _ =>
    s.onLocation l fun address =>
      s.onTable i fun t =>
        let (t', result) := t.bind s.arena ⟨name, descriptor, address⟩ id
        (s.setTable i t', .bound result)

/-- A guard as seen from the start of its region, while that lives. -/
def view? (s : Session) (g : Guard) : Option GuardView := do
  let r ← s.arena.get? g.region
  let entry ← g.entryPoint? s.arena
  some ⟨.ofMethod r.base g.method, g.region, entry - r.base⟩

/-- Keep a guard, which makes it a holder of its region. -/
def keepGuard (s : Session) (g : Guard) : Session :=
  { s.withArena (s.arena.acquire g.region) with guards := s.guards ++ [some g] }

/-- Look a name up, and keep the guard if that is asked for. -/
def lookup (s : Session) (i : Nat) (name : String) (keep : Bool) : Session × Answer :=
  s.onTable i fun t =>
    match t.lookup? s.arena name with
    | none => (s, .lookup none none)
    | some g =>
      if keep then (s.keepGuard g, .lookup (s.view? g) (some s.guards.length))
      else (s, .lookup (s.view? g) none)

/-- The guard of a number, if it was made and not given up. -/
def guard? (s : Session) (i : Nat) : Option Guard := (s.guards[i]?).join

/-- Make another guard like one that there is. Of one that was given up the copy is given up too. -/
def cloneGuard (s : Session) (i : Nat) : Session × Answer :=
  match s.guard? i with
  | some g => (s.keepGuard g, .newGuard s.guards.length)
  | none => ({ s with guards := s.guards ++ [none] }, .newGuard s.guards.length)

/-- Give up a guard. -/
def dropGuard (s : Session) (i : Nat) : Session × Answer :=
  match s.guard? i with
  | some g =>
    ({ s.withArena (s.arena.release g.region) with guards := s.guards.set i none },
      .droppedGuard true)
  | none => (s, .droppedGuard false)

/-! ### Indices of units -/

/-- The index that was chosen. -/
def index (s : Session) : IndexChoice → UnitIndex
  | .shared => s.linkage.units
  | .own => s.ownUnits

/-- The session with an index changed. -/
def setIndex (s : Session) (choice : IndexChoice) (i : UnitIndex) : Session :=
  match choice with
  | .shared => { s with linkage := { s.linkage with units := i } }
  | .own => { s with ownUnits := i }

/-- What a step answers about the number of a unit, released or not. -/
def onUnitId (s : Session) (i : Nat) (f : UnitId → Session × Answer) : Session × Answer :=
  match s.units[i]? with
  | some h => f h.unit.id
  | none => (s, .absent)

/-- Enter a unit in an index. -/
def track (s : Session) (choice : IndexChoice) (i : Nat) (region : RegionId) : Session × Answer :=
  s.onRegion region fun _ =>
    s.onUnitId i fun id => (s.setIndex choice ((s.index choice).insert id region), .done)

/-- Remove a unit from an index. -/
def untrack (s : Session) (choice : IndexChoice) (i : Nat) : Session × Answer :=
  s.onUnitId i fun id =>
    let (index, done) := (s.index choice).remove id
    (s.setIndex choice index, .removed done)

/-- Remove the units of dead regions from an index. -/
def prune (s : Session) (choice : IndexChoice) : Session × Answer :=
  let (index, count) := (s.index choice).prune s.arena
  (s.setIndex choice index, .purged count)

/-! ### Steps -/

/-- Carry out one step, where `sys` answers for the system. -/
def step (s : Session) (sys : System) : Step → Session × Answer
  | .newCompiler kind p settings => s.newCompiler kind p settings
  | .settings i => s.onCompiler i fun h => (s, .settings h.settings)
  | .callShape i signature =>
    s.onCompiler i fun h =>
      (s, .callShape (h.compiler.callShape signature) (h.compiler.accepts signature))
  | .compile i request => s.compile i request
  | .pending i => s.onCompiler i fun h => (s, .pending h.compiler.pending)
  | .attach i receiver => s.attach sys i receiver
  | .unit i => s.describeUnit i
  | .release i => s.release i
  | .commit requests p settings => s.commit sys requests p settings
  | .share id => s.share id
  | .hold id => s.hold id
  | .drop id => s.drop id
  | .alive id => (s, .alive (s.arena.alive id))
  | .region id => s.onRegion id fun r => (s, .region r)
  | .code id name => s.describeCode id name
  | .at id location => s.describeAt id location
  | .register id receiver => s.register id receiver
  | .newTable => ({ s with tables := s.tables ++ [.empty] }, .newTable s.tables.length)
  | .bind i id name descriptor location => s.bind i id name descriptor location
  | .lookup i name keep => s.lookup i name keep
  | .unbind i name =>
    s.onTable i fun t =>
      let (t', done) := t.unbind name
      (s.setTable i t', .removed done)
  | .purge i =>
    s.onTable i fun t =>
      let (t', count) := t.purge s.arena
      (s.setTable i t', .purged count)
  | .tableSize i => s.onTable i fun t => (s, .size t.size)
  | .guard i => (s, .guard ((s.guard? i).bind s.view?))
  | .cloneGuard i => s.cloneGuard i
  | .dropGuard i => s.dropGuard i
  | .track choice i region => s.track choice i region
  | .untrack choice i => s.untrack choice i
  | .tracked choice i =>
    s.onUnitId i fun id => (s, .tracked ((s.index choice).get? s.arena id))
  | .find choice location =>
    s.onLocation location fun address =>
      (s, .found ((s.index choice).findByAddress? s.arena address))
  | .index choice =>
    (s, .index ((s.index choice).live s.arena) (s.index choice).size)
  | .prune choice => s.prune choice
  | .setErrorCode code =>
    let place := s.errorCode.set code
    ({ s with errorCode := place }, .errorCode place.code)
  | .errorCode => (s, .errorCode s.errorCode.code)
  | .saveErrorCode systemCode =>
    let place := s.errorCode.save systemCode
    ({ s with errorCode := place }, .errorCode place.code)
  | .threadErrorCode systemCode =>
    let place := ErrorCode.fresh
    (s, .threadErrorCode place.code (place.save systemCode).code s.errorCode.code)

/-- Carry out a sequence of steps, where `place` answers for the system at each, and list the answers. -/
def run (place : Session → System) (s : Session) : List Step → List Answer
  | [] => []
  | step :: rest =>
    let (s', answer) := s.step (place s) step
    answer :: run place s' rest

end Session

end Trampoline
