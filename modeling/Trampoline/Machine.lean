import Trampoline.Instruction.Decoding

/-!
# The machine

The registers and the memory that stubs work on, and what each of their instructions does to them.

* `Store`: memory, one byte at each address; `Store.read`, `Store.write`, `Store.word`;
* `Machine`: sixteen general registers, eight floating-point registers, memory, and the address of
  the next instruction;
* `Machine.execute`: the meaning of an instruction.

Addresses are machine words, so memory goes on at its start where it ends. There are no flags, since no
instruction of a stub asks for one.
-/

namespace Trampoline

/-- Memory: one byte at each address. -/
abbrev Store := Address → Byte

namespace Store

/-- The `n` bytes from an address up. -/
def read (s : Store) (a : Address) (n : Nat) : Bytes :=
  (List.range n).map fun i => s (a + BitVec.ofNat 64 i)

/-- Memory with bytes written from an address up. -/
def write (s : Store) (a : Address) (bs : Bytes) : Store :=
  fun x => (bs[(x - a).toNat]?).getD (s x)

/-- The number that `n` bytes spell, as a machine word. -/
def number (s : Store) (a : Address) (n : Nat) : Word := BitVec.ofNat 64 (Bytes.toNat (s.read a n))

/-- The machine word at an address. -/
def word (s : Store) (a : Address) : Word := s.number a 8

/-- Memory with a machine word written at an address. -/
def writeWord (s : Store) (a : Address) (v : Word) : Store := s.write a (Bytes.ofNat 8 v.toNat)

end Store

/-- The state of the machine. -/
structure Machine where
  /-- The address of the next instruction. -/
  ip : Address
  gpr : Gpr → Word
  xmm : Xmm → BitVec 128
  memory : Store

/-- The number of bytes that a floating-point transfer moves. -/
def Precision.bytes : Precision → Nat
  | single => 4
  | double => 8

namespace Machine

/-- The stack pointer. -/
def rsp (m : Machine) : Address := m.gpr .rsp

/-- The machine with a value in a general register. -/
def setGpr (m : Machine) (r : Gpr) (v : Word) : Machine :=
  { m with gpr := fun q => if q = r then v else m.gpr q }

/-- The machine with a value in a floating-point register. -/
def setXmm (m : Machine) (r : Xmm) (v : BitVec 128) : Machine :=
  { m with xmm := fun q => if q = r then v else m.xmm q }

/-- The address that a memory operand names. -/
def address (m : Machine) (o : Mem) : Address := m.gpr o.base + o.disp.signExtend 64

/-- The byte that a register names as a source of one byte. Without a REX byte the numbers 4 to 7 name
the second bytes of the first four registers. -/
def byteOf (m : Machine) (hasRex : Bool) (r : Gpr) : Byte :=
  if !hasRex ∧ 4 ≤ r.number ∧ r.number < 8 then
    (m.gpr (Gpr.ofNumber (r.number - 4))).extractLsb' 8 8
  else
    (m.gpr r).setWidth 8

/-- The value of a sign-extending move: the short source extended to 32 bits, and zeros above. -/
def signedSource (m : Machine) (hasRex : Bool) (size : ShortWidth) (r : Gpr) : Word :=
  match size with
  | .byte => ((m.byteOf hasRex r).signExtend 32).setWidth 64
  | .word => (((m.gpr r).setWidth 16).signExtend 32).setWidth 64

/-- The machine after an instruction has been carried out; `ip` is the address of the instruction
behind it. A call leaves that address on the stack, and a return takes it from there. A load of a
floating-point number clears the rest of its register. -/
def execute (hasRex : Bool) (i : Instruction) (m : Machine) : Machine :=
  match i with
  | .move dst src => m.setGpr dst (m.gpr src)
  | .load dst src => m.setGpr dst (m.memory.word (m.address src))
  | .store dst src => { m with memory := m.memory.writeWord (m.address dst) (m.gpr src) }
  | .moveImm dst v => m.setGpr dst v
  | .moveSigned size dst src => m.setGpr dst (m.signedSource hasRex size src)
  | .arith .add dst v => m.setGpr dst (m.gpr dst + v.signExtend 64)
  | .arith .sub dst v => m.setGpr dst (m.gpr dst - v.signExtend 64)
  | .call target =>
    let top := m.rsp - 8
    { m.setGpr .rsp top with ip := m.gpr target, memory := m.memory.writeWord top m.ip }
  | .ret => { m.setGpr .rsp (m.rsp + 8) with ip := m.memory.word m.rsp }
  | .loadFloat precision dst src =>
    m.setXmm dst ((m.memory.number (m.address src) precision.bytes).setWidth 128)
  | .storeFloat precision dst src =>
    { m with memory := m.memory.write (m.address dst) (Bytes.ofNat precision.bytes (m.xmm src).toNat) }

end Machine

end Trampoline
