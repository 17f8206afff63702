import Trampoline.Arena

/-!
# Dispatch

How native functions are found by name.

* `Method`: a name, a descriptor and the address to call;
* `Rejection`: why a binding was refused, with its `message`;
* `Table`: bindings by name; `Table.bind`, `Table.unbind`, `Table.purge`;
* `Table.lookup?`: the `Guard` of a name, while the code behind it lives.

A table names regions and does not hold them: a binding whose region is dead no longer resolves. It
goes when the next method that makes sense is offered, or when the table is purged.
-/

namespace Trampoline

/-- A function as it is published. -/
structure Method where
  name : String
  descriptor : String
  /-- The address to call. -/
  address : Nat
  deriving DecidableEq

/-- Why a binding was refused. -/
inductive Rejection
  /-- The name is bound already. -/
  | duplicate (method : String)
  /-- The binding makes no sense. -/
  | malformed (method reason : String)
  /-- The receiver has reasons of its own. -/
  | rejected (method reason : String)
  deriving DecidableEq

namespace Rejection

/-- The reason in words. -/
def message : Rejection → String
  | duplicate method => s!"method `{method}` is already bound"
  | malformed method reason => s!"malformed binding for `{method}`: {reason}"
  | rejected method reason => s!"binding for `{method}` rejected: {reason}"

/-- The name that was to be bound. -/
def method : Rejection → String
  | duplicate m | malformed m _ | rejected m _ => m

end Rejection

/-- Whether a text can be a descriptor: parameters in parentheses and something after them. -/
def isDescriptor (text : String) : Bool :=
  let cs := text.toList
  cs.head? == some '(' && cs.contains ')' && cs.getLast? != some ')'

/-- What is wrong with a method whose code should lie in a region, if anything is. -/
def Method.defect? (m : Method) (a : Arena) (region : RegionId) : Option String :=
  if m.name = "" then some "empty name"
  else if !isDescriptor m.descriptor then some "bad signature descriptor"
  else if m.address = 0 ∨ !(a.get? region).any (·.contains m.address) then
    some "address outside its code region"
  else none

/-- The method of each stub of a region, at its final address. -/
def Region.methods (r : Region) : List Method :=
  r.entries.map fun e => ⟨e.name, e.descriptor, r.base + e.offset⟩

/-- A method and the region of its code. -/
structure Binding where
  method : Method
  region : RegionId
  deriving DecidableEq

/-- A method that was looked up. Whoever keeps it holds its region. -/
structure Guard where
  method : Method
  region : RegionId
  /-- Where the code starts in its region. -/
  offset : Nat
  deriving DecidableEq

/-- The address to call, while the region lives. -/
def Guard.entryPoint? (g : Guard) (a : Arena) : Option Nat :=
  (a.get? g.region).bind fun r => r.pages.entryPoint? g.offset

/-- Bindings by name. -/
structure Table where
  bindings : List Binding

namespace Table

/-- No bindings. -/
def empty : Table := ⟨[]⟩

/-- The number of bindings, those of dead regions included. -/
def size (t : Table) : Nat := t.bindings.length

/-- The binding of a name, whether its region lives or not. -/
def find? (t : Table) (name : String) : Option Binding :=
  t.bindings.find? (·.method.name == name)

/-- The bindings whose regions live. -/
def sweep (a : Arena) (t : Table) : Table := ⟨t.bindings.filter fun b => a.alive b.region⟩

/-- Bind a method whose code lies in a region. What makes no sense is refused at once; otherwise dead
bindings go first, and then the name must be free. -/
def bind (a : Arena) (t : Table) (m : Method) (region : RegionId) :
    Table × Except Rejection Unit :=
  match m.defect? a region with
  | some reason => (t, .error (.malformed m.name reason))
  | none =>
    -- Only a living region can keep a name from being used again.
    let swept := t.sweep a
    if (swept.find? m.name).isSome then (swept, .error (.duplicate m.name))
    else (⟨swept.bindings ++ [⟨m, region⟩]⟩, .ok ())

/-- The guard of a name whose region lives. -/
def lookup? (a : Arena) (t : Table) (name : String) : Option Guard :=
  (t.find? name).bind fun b =>
    (a.get? b.region).map fun r => ⟨b.method, b.region, b.method.address - r.base⟩

/-- Remove the binding of a name, and say whether there was one. -/
def unbind (t : Table) (name : String) : Table × Bool :=
  (⟨t.bindings.filter (·.method.name != name)⟩, (t.find? name).isSome)

/-- Remove the bindings of dead regions, and say how many there were. -/
def purge (a : Arena) (t : Table) : Table × Nat :=
  let swept := t.sweep a
  (swept, t.size - swept.size)

end Table

end Trampoline
