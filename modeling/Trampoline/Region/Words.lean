import Trampoline.Region

/-!
# Layout in machine words

The layout of a batch as a machine computes it: every sum in a machine word, and nothing laid out as soon
as a word does not hold one.

* `ceilDivInWords?`, `roundUpInWords?`: rounding up, from what a division leaves;
* `Region.roomInWords?`: the room of a batch, stub by stub;
* `Filling.addInWords`: one more stub, with its offset, its end and its address in words;
* `Region.ofStubsInWords`: the region of a batch.
-/

namespace Trampoline

/-- The number of blocks of size `a` that hold `n`: one more than fit, if anything is left. -/
def ceilDivInWords? (n a : Nat) : Option Nat :=
  if a = 0 then none
  else if n % a = 0 then some (n / a)
  else checkedAdd? (n / a) 1

/-- The least multiple of `a` not below `n`: what is left of the last block is filled up. -/
def roundUpInWords? (n a : Nat) : Option Nat :=
  if a = 0 then none
  else if n % a = 0 then some n
  else checkedAdd? n (a - n % a)

namespace Region

/-- The bytes of every stub and one alignment each, added to those of the stubs before it. -/
def roomInWords? (alignment : Nat) (stubs : List Stub) : Option Nat :=
  stubs.foldlM (fun room s => (checkedAdd? s.size alignment).bind (checkedAdd? room)) 0

/-- Put one more stub at the next aligned offset. -/
def Filling.addInWords (alignment : Nat) (f : Filling) (s : Stub) : Except CommitFailure Filling :=
  let placed? := do
    let offset ← roundUpInWords? f.offset alignment
    let stop ← checkedAdd? offset s.size
    let field ← f.pages.read? offset s.size
    let origin ← checkedAdd? f.pages.base offset
    let code ← s.code.linkInto? origin field
    let pages ← f.pages.write? offset code
    some (offset, stop, pages)
  match placed? with
  | none => .error .overflow
  | some (offset, stop, pages) =>
    if f.entries.any (·.name == s.name) then .error (.build (.duplicate s.name))
    else
      let entry : Entry := ⟨s.name, s.signature, s.descriptor, offset, s.size⟩
      .ok ⟨pages, stop, f.entries ++ [entry]⟩

/-- The region of a batch. -/
def ofStubsInWords (sys : System) (settings : Settings) (stubs : List Stub) :
    Except CommitFailure Region :=
  let pageSize := settings.effectivePageSize sys
  let sizes? := do
    let alignment ← settings.alignment?
    let room ← roomInWords? alignment stubs
    let count ← ceilDivInWords? room pageSize
    some (alignment, room, count)
  match sizes? with
  | none => .error .overflow
  | some (alignment, room, count) =>
    -- Allocating multiplies exactly, and has no answer where no word holds the product.
    match Pages.allocate? sys.map count pageSize with
    | none => .error (.build (.outOfMemory room count))
    | some pages =>
      match stubs.foldlM (Filling.addInWords alignment) ⟨pages, 0, []⟩ with
      | .error e => .error e
      | .ok filled => filled.finish sys pageSize

end Region

end Trampoline
