import Trampoline.Bytes
import Trampoline.Instruction

/-!
# Instruction encoding

The bytes of each instruction.

* `Rex`: the byte before the opcode that carries the fourth bits of register numbers;
* `modrm`, `sib`: the operand bytes, put together from their fields;
* `fitsByte`: whether a signed constant can be written in one byte;
* `Mem.operand`: the operand bytes of a memory operand with their displacement;
* `Instruction.encode`: all the bytes of an instruction;
* `maxLength`: no instruction of the machine is longer.
-/

namespace Trampoline

/-- A REX byte: `w` asks for 64-bit operands, `r`, `x` and `b` are the fourth bits of the register
field, of the index and of the base or the direct operand. -/
structure Rex where
  w : Bool
  r : Bool
  x : Bool
  b : Bool
  deriving DecidableEq

namespace Rex

/-- The byte: the bits `0100` and the four flags. -/
def byte (x : Rex) : Byte :=
  0b0100#4 ++ BitVec.ofBool x.w ++ BitVec.ofBool x.r ++ BitVec.ofBool x.x ++ BitVec.ofBool x.b

/-- Whether the byte says anything: without flags it may be left out. -/
def needed (x : Rex) : Bool := x.w || x.r || x.x || x.b

/-- The byte for one direct operand. -/
def one (w : Bool) (rm : Gpr) : Rex := ⟨w, false, false, rm.high⟩

/-- The byte for a register field and a direct operand. -/
def two (w : Bool) (reg rm : Gpr) : Rex := ⟨w, reg.high, false, rm.high⟩

/-- The byte for a register field and a memory operand. -/
def mem (w regHigh : Bool) (m : Mem) : Rex := ⟨w, regHigh, false, m.base.high⟩

/-- The byte where it is needed, and nothing where it is not. -/
def ifNeeded (x : Rex) : Bytes := if x.needed then [x.byte] else []

end Rex

/-- The operand byte: addressing mode, register field, and direct operand or base. -/
def modrm (mode : BitVec 2) (reg rm : BitVec 3) : Byte := mode ++ reg ++ rm

/-- The addressing mode of a register operand. -/
def direct : BitVec 2 := 3

/-- The SIB byte for a base register alone: no scale and no index. -/
def sib (base : BitVec 3) : Byte := 0b00#2 ++ 0b100#3 ++ base

/-- Whether a signed constant of 32 bits is the extension of its lowest byte. -/
def fitsByte (v : BitVec 32) : Bool := (v.setWidth 8).signExtend 32 == v

/-- The four bytes of a constant. -/
def imm32 (v : BitVec 32) : Bytes := Bytes.ofNat 4 v.toNat

/-- The eight bytes of a constant. -/
def imm64 (v : Word) : Bytes := Bytes.ofNat 8 v.toNat

namespace Mem

/-- The addressing mode: without displacement, with one of a byte, or with one of four bytes. -/
def mode (m : Mem) : BitVec 2 :=
  if m.disp == 0 && !m.base.needsDisplacement then 0
  else if fitsByte m.disp then 1
  else 2

/-- The displacement as its mode writes it. -/
def displacement (m : Mem) : Bytes :=
  if m.mode == 0 then []
  else if m.mode == 1 then [m.disp.setWidth 8]
  else imm32 m.disp

/-- The operand bytes beside a register field. A base whose low bits announce a SIB byte gets one. -/
def operand (reg : BitVec 3) (m : Mem) : Bytes :=
  modrm m.mode reg m.base.low :: (if m.base.needsSib then [sib m.base.low] else []) ++ m.displacement

end Mem

/-- The opcode, after the escape byte, that reads a byte or a word with its sign. -/
def ShortWidth.opcode : ShortWidth → Byte
  | byte => 0xBE
  | word => 0xBF

/-- The digit in the register field that selects the operation. -/
def Arith.digit : Arith → BitVec 3
  | add => 0
  | sub => 5

/-- The byte before the opcode that selects the format. -/
def Precision.selector : Precision → Byte
  | single => 0xF3
  | double => 0xF2

namespace Instruction

/-- A floating-point transfer: the byte that selects the format stands before the REX byte. -/
def floatTransfer (precision : Precision) (opcode : Byte) (reg : Xmm) (m : Mem) : Bytes :=
  precision.selector :: (Rex.mem false reg.high m).ifNeeded ++ [0x0F, opcode] ++ m.operand reg.low

/-- The bytes of an instruction. A constant is written in one byte where it fits, and the move of a
64-bit constant always has all eight. -/
def encode : Instruction → Bytes
  | move dst src => [(Rex.two true src dst).byte, 0x89, modrm direct src.low dst.low]
  | load dst src => [(Rex.mem true dst.high src).byte, 0x8B] ++ src.operand dst.low
  | store dst src => [(Rex.mem true src.high dst).byte, 0x89] ++ dst.operand src.low
  | moveImm dst value => [(Rex.one true dst).byte, 0b10111#5 ++ dst.low] ++ imm64 value
  -- Writing the lower half of a register clears the upper half, so the width flag is not set.
  | moveSigned size dst src =>
    (Rex.two false dst src).ifNeeded ++ [0x0F, size.opcode, modrm direct dst.low src.low]
  | arith op dst value =>
    if fitsByte value then
      [(Rex.one true dst).byte, 0x83, modrm direct op.digit dst.low, value.setWidth 8]
    else
      [(Rex.one true dst).byte, 0x81, modrm direct op.digit dst.low] ++ imm32 value
  | call target => (Rex.one false target).ifNeeded ++ [0xFF, modrm direct 2 target.low]
  | ret => [0xC3]
  | loadFloat precision dst src => floatTransfer precision 0x10 dst src
  | storeFloat precision dst src => floatTransfer precision 0x11 src dst

/-- The longest instruction the machine accepts, in bytes. -/
def maxLength : Nat := 15

end Instruction

end Trampoline
