import Trampoline.Address
import Trampoline.Bytes
import Trampoline.Rounding
import Trampoline.System

/-!
# Pages

Blocks of memory that are first written and then made executable for good.

* `pagesFor?`: how many pages hold a number of bytes;
* `Pages.allocate?`, `Pages.write?`, `Pages.protect`: the life of a block;
* `Pages.contains`, `Pages.read?`, `Pages.entryPoint?`: what can be asked of it.
-/

namespace Trampoline

/-- How many pages of `pageSize` bytes hold `size` bytes; there is no answer for empty pages. -/
def pagesFor? (size pageSize : Nat) : Option Nat :=
  if pageSize = 0 then none else some (ceilDiv size pageSize)

/-- What may be done with a block. -/
inductive Protection
  | writable
  | executable
  deriving DecidableEq

/-- The name of the protection. -/
def Protection.name : Protection → String
  | writable => "Writable"
  | executable => "Executable"

/-- A block of memory. -/
structure Pages where
  /-- The address of the first byte. -/
  base : Nat
  bytes : Bytes
  protection : Protection

namespace Pages

/-- The number of bytes. -/
def size (p : Pages) : Nat := p.bytes.length

/-- A block of `count` pages, all zero and writable. There is none of size zero, none whose size no
machine word holds, and none where the system gives no place: a place starts after the null address
and ends where a machine word can still name it. -/
def allocate? (map : Mapper) (count pageSize : Nat) : Option Pages :=
  -- The product is exact: one that no machine word holds is refused and not cut.
  let size := count * pageSize
  if size = 0 ∨ wordLimit ≤ size then none
  else
    (map size).bind fun base =>
      if 0 < base ∧ base + size < wordLimit then some ⟨base, List.replicate size 0, .writable⟩
      else none

/-- The block with `new` written at `offset`, if it is still writable and has room there. -/
def write? (p : Pages) (offset : Nat) (new : Bytes) : Option Pages :=
  match p.protection with
  | .writable => (Bytes.splice? p.bytes offset new).map fun bytes => { p with bytes }
  | .executable => none

/-- The block made executable; from then on it never changes. -/
def freeze (p : Pages) : Pages := { p with protection := .executable }

/-- The block made executable, if the system lets it be. -/
def protect (sys : System) (p : Pages) : Except String Pages :=
  match sys.refusal? p.base p.size with
  | some reason => .error reason
  | none => .ok p.freeze

/-- Whether the address is that of a byte of the block. -/
def contains (p : Pages) (address : Nat) : Bool := p.base ≤ address && address < p.base + p.size

/-- The `size` bytes at `offset`, if they lie in the block. -/
def read? (p : Pages) (offset size : Nat) : Option Bytes := Bytes.slice? p.bytes offset size

/-- The address of the code at `offset`, if that is inside the block. -/
def entryPoint? (p : Pages) (offset : Nat) : Option Nat :=
  if offset < p.size then some (p.base + offset) else none

end Pages

end Trampoline
