import Trampoline.Instruction.Encoding

/-!
# Code

Sequences of instructions put together into bytes, with the places where absolute addresses go left
open.

* `Item`: what a sequence is made of: an instruction, the load of an address that is filled in
  later, or bytes as they are;
* `Code`: the bytes of a sequence and its `Fixup`s, the fields that wait for an address;
* `Code.push`, `Code.assemble`: the code of a sequence, item by item; `Code.sizes`: how it grows;
* `Code.linkInto?`: the code written over a buffer of its size, every address in its place.

Until it is linked, code holds zeros where its addresses go.
-/

namespace Trampoline

/-- A field of eight bytes that waits for an absolute address. -/
structure Fixup where
  /-- Where the field starts, counted from the start of the code. -/
  offset : Nat
  target : Address
  deriving DecidableEq

/-- Assembled code. -/
structure Code where
  bytes : Bytes
  /-- The open fields in the order of their offsets. -/
  fixups : List Fixup
  deriving DecidableEq

/-- A part of an instruction sequence. -/
inductive Item
  | instruction (i : Instruction)
  /-- The load of an absolute address, left open until the code is linked. -/
  | loadAddress (dst : Gpr) (target : Address)
  /-- Bytes as they are. -/
  | raw (bytes : Bytes)
  deriving DecidableEq

/-- The bytes of a 64-bit move before its constant. -/
def immediateOffset : Nat := 2

/-- The bytes of an item, an open address as zero. -/
def Item.bytes : Item → Bytes
  | instruction i => i.encode
  | loadAddress dst _ => (Instruction.moveImm dst 0).encode
  | raw bs => bs

/-- The fields that an item leaves open when it starts at `offset`. -/
def Item.fixups (offset : Nat) : Item → List Fixup
  | loadAddress _ target => [⟨offset + immediateOffset, target⟩]
  | instruction _ | raw _ => []

/-- Write the address into its field. -/
def Fixup.patch? (f : Fixup) (buffer : Bytes) : Option Bytes :=
  Bytes.splice? buffer f.offset (imm64 f.target)

namespace Code

/-- The code of the empty sequence. -/
def empty : Code := ⟨[], []⟩

/-- The number of bytes. -/
def size (c : Code) : Nat := c.bytes.length

/-- Whether the code has no bytes. -/
def isEmpty (c : Code) : Bool := c.bytes.isEmpty

/-- The code with one more item at its end. -/
def push (c : Code) (i : Item) : Code :=
  ⟨c.bytes ++ i.bytes, c.fixups ++ i.fixups c.size⟩

/-- The code of a sequence. -/
def assemble (items : List Item) : Code := items.foldl push empty

/-- The sizes that the code of a sequence has after each of its items. -/
def sizes (items : List Item) : List Nat :=
  (List.range items.length).map fun n => (assemble (items.take (n + 1))).size

/-- The code written over a buffer of exactly its size, to run at `origin`, with every open field
filled. All addresses in code are absolute, so the origin changes no byte. -/
def linkInto? (c : Code) (_origin : Nat) (buffer : Bytes) : Option Bytes :=
  if buffer.length = c.size then c.fixups.foldlM (fun bs f => f.patch? bs) c.bytes else none

end Code

end Trampoline
