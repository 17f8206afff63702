import Trampoline.Region

/-!
# Compilers

A compiler gathers the stubs of one batch and lays them out together.

* `Batch`: the stubs gathered so far, and the names they use;
* `Compiler`: a batch under way, or a compiler that refuses everything;
* `Compiler.select`: the compiler for a platform under given settings;
* `Compiler.callShape`, `Compiler.accepts`: whether a signature gets a stub;
* `Compiler.compile`: add the stub of a request. A name that is used twice is refused; any other
  error ends the batch;
* `Compiler.commit`: lay out the batch and start a new one.
-/

namespace Trampoline

/-- The stubs gathered so far for one region. -/
structure Batch where
  platform : Platform
  settings : Settings
  /-- The stubs in the order of their requests. -/
  pending : List Stub
  /-- The names that are used. -/
  names : List String

namespace Batch

/-- A batch without stubs. -/
def new (p : Platform) (s : Settings) : Batch := ⟨p, s, [], []⟩

/-- A batch for the running machine, under the settings that the environment asks for. -/
def host (saver : Address) (value : Option ByteArray) : Batch := new .host (.ofVariable saver value)

/-- The batch without its stubs. -/
def clear (b : Batch) : Batch := { b with pending := [], names := [] }

/-- The shape of a call, unless stubs are switched off. -/
def callShape (b : Batch) (s : Signature) : Except Refusal CallShape :=
  if b.settings.enabled then s.callShape b.platform else .error .disabled

/-- The stub of a request, unless stubs are switched off. -/
def stub (b : Batch) (r : Request) : Except BuildError Stub :=
  if b.settings.enabled then Stub.ofRequest b.platform b.settings.saver r
  else .error (.refused r.name .disabled)

/-- Add the stub of a request. -/
def compile (b : Batch) (r : Request) : Batch × Except BuildError Unit :=
  if b.names.contains r.name then (b, .error (.duplicate r.name))
  else
    match b.stub r with
    | .ok s => ({ b with pending := b.pending ++ [s], names := r.name :: b.names }, .ok ())
    | .error e => (b.clear, .error e)

/-- Lay out the stubs and start again without any, also when they get no region. Without stubs there is
nothing to lay out. -/
def commit (b : Batch) (sys : System) : Batch × Option (Except CommitFailure Region) :=
  if b.pending.isEmpty then (b, none)
  else (b.clear, some (Region.ofStubs sys b.settings b.pending))

end Batch

/-- What makes stubs. -/
inductive Compiler
  | batch (b : Batch)
  /-- Refuses everything for one reason. -/
  | refusing (reason : Refusal)

namespace Compiler

/-- A compiler for a platform, whatever the platform is. -/
def new (p : Platform) (s : Settings) : Compiler := .batch (.new p s)

/-- The compiler of a platform that gets no stubs. -/
def forPlatform (p : Platform) : Compiler := .refusing (.platform p)

/-- The compiler when stubs are switched off. -/
def off : Compiler := .refusing .disabled

/-- The compiler for a platform under given settings; the switch comes first. -/
def select (p : Platform) (s : Settings) : Compiler :=
  if !s.enabled then off else if p.isSysV then new p s else forPlatform p

/-- The shape of a call that gets a stub, or why it gets none. -/
def callShape (c : Compiler) (s : Signature) : Except Refusal CallShape :=
  match c with
  | batch b => b.callShape s
  | refusing reason => .error reason

/-- Whether a signature gets a stub. -/
def accepts (c : Compiler) (s : Signature) : Bool := (c.callShape s).isOk

/-- Add the stub of a request. -/
def compile (c : Compiler) (r : Request) : Compiler × Except BuildError Unit :=
  match c with
  | batch b =>
    let (b', answer) := b.compile r
    (batch b', answer)
  | refusing reason => (c, .error (.refused r.name reason))

/-- The stubs gathered so far. -/
def pending : Compiler → List Stub
  | batch b => b.pending
  | refusing _ => []

/-- Lay out the stubs gathered so far and start again. -/
def commit (c : Compiler) (sys : System) : Compiler × Option (Except CommitFailure Region) :=
  match c with
  | batch b =>
    let (b', answer) := b.commit sys
    (batch b', answer)
  | refusing _ => (c, none)

end Compiler

end Trampoline
