import Trampoline.Pages
import Trampoline.Settings
import Trampoline.Stub

/-!
# Code regions

A batch of stubs laid out in one executable block.

* `Region.Entry`: where one stub lies in the region;
* `CommitFailure`: why there is no region;
* `Region.ofStubs`: the region of a batch. Each stub starts at the first aligned offset after the
  one before it, and every address in it is filled in; then the system is asked to let it be executed;
* `Region.entry?`, `Region.addressOf?`, `Region.codeOf?`, `Region.entryPoint?`: the stub of a name;
* `Region.contains`, `Region.stubAt?`: what lies at an address.

The region has room for the code and one alignment of slack for each stub, in whole pages.
-/

namespace Trampoline

/-- Why a batch of stubs has no region. -/
inductive CommitFailure
  /-- A size that no machine word holds, or a stub that leaves its region. -/
  | overflow
  | build (e : BuildError)
  deriving DecidableEq

/-- Where a stub lies in a region. -/
structure Region.Entry where
  name : String
  signature : Signature
  descriptor : String
  /-- Where the code starts, counted from the start of the region. -/
  offset : Nat
  size : Nat
  deriving DecidableEq

/-- Executable memory that holds the stubs of a batch. -/
structure Region where
  pages : Pages
  pageSize : Nat
  /-- The stubs in the order of their offsets. -/
  entries : List Region.Entry

namespace Region

/-- A region that is being filled. -/
structure Filling where
  pages : Pages
  /-- The end of the last stub. -/
  offset : Nat
  entries : List Entry

/-- Put one more stub at the next aligned offset. A batch may use a name only once. -/
def Filling.add (alignment : Nat) (f : Filling) (s : Stub) : Except CommitFailure Filling :=
  let offset := roundUp f.offset alignment
  -- The field is as long as the code, so there is no code only where the stub leaves the region.
  let pages? := do
    let field ← f.pages.read? offset s.size
    let code ← s.code.linkInto? (f.pages.base + offset) field
    f.pages.write? offset code
  match pages? with
  | none => .error .overflow
  | some pages =>
    if f.entries.any (·.name == s.name) then .error (.build (.duplicate s.name))
    else
      let entry : Entry := ⟨s.name, s.signature, s.descriptor, offset, s.size⟩
      .ok ⟨pages, offset + s.size, f.entries ++ [entry]⟩

/-- The region of what was filled in, if the system lets it be executed. -/
def Filling.finish (sys : System) (pageSize : Nat) (f : Filling) : Except CommitFailure Region :=
  match f.pages.protect sys with
  | .error reason => .error (.build (.protection reason))
  | .ok pages => .ok ⟨pages, pageSize, f.entries⟩

/-- The bytes to make room for: those of every stub and one alignment each. -/
def roomFor (alignment : Nat) : List Stub → Nat
  | [] => 0
  | s :: rest => s.size + alignment + roomFor alignment rest

/-- The region of a batch. -/
def ofStubs (sys : System) (settings : Settings) (stubs : List Stub) :
    Except CommitFailure Region :=
  match settings.alignment? with
  | none => .error .overflow
  | some alignment =>
    let pageSize := settings.effectivePageSize sys
    let room := roomFor alignment stubs
    if wordLimit ≤ room then .error .overflow
    else
      match pagesFor? room pageSize with
      | none => .error .overflow
      | some count =>
        -- Each stub loses less than one alignment to padding, so the pages hold them all.
        match Pages.allocate? sys.map count pageSize with
        | none => .error (.build (.outOfMemory room count))
        | some pages =>
          match stubs.foldlM (Filling.add alignment) ⟨pages, 0, []⟩ with
          | .error e => .error e
          | .ok filled => filled.finish sys pageSize

/-- The address of the first byte. -/
def base (r : Region) : Nat := r.pages.base

/-- The number of bytes, whole pages included. -/
def size (r : Region) : Nat := r.pages.size

/-- The number of pages. -/
def pageCount (r : Region) : Nat := r.size / r.pageSize

/-- The entry of a name. -/
def entry? (r : Region) (name : String) : Option Entry := r.entries.find? (·.name == name)

/-- The address where the stub of a name starts. -/
def addressOf? (r : Region) (name : String) : Option Nat :=
  (r.entry? name).map fun e => r.base + e.offset

/-- The code of the stub of a name. -/
def codeOf? (r : Region) (name : String) : Option Bytes :=
  (r.entry? name).bind fun e => r.pages.read? e.offset e.size

/-- The address to call for the stub of a name. -/
def entryPoint? (r : Region) (name : String) : Option Nat :=
  (r.entry? name).bind fun e => r.pages.entryPoint? e.offset

/-- Whether the address is that of a byte of the region. -/
def contains (r : Region) (address : Nat) : Bool := r.pages.contains address

/-- The first entry whose code covers an address. -/
def stubAt? (r : Region) (address : Nat) : Option Entry :=
  if r.base ≤ address then
    let offset := address - r.base
    r.entries.find? fun e => e.offset ≤ offset && offset < e.offset + e.size
  else
    none

end Region

end Trampoline
