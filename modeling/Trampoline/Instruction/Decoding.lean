import Trampoline.Instruction.Encoding

/-!
# Instruction decoding

What the machine reads in bytes, from left to right: a byte that selects a format, a REX byte, the
opcode, the operand byte, a SIB byte, a displacement and a constant.

* `Rex.ofByte?`, `Fields.ofByte`, `registerNumber`: the parts of single bytes; a register is a number
  of four bits;
* `Operand`: a register, or one of the ways to name memory; `operand?` reads it;
* `Decoded`: an instruction as it was read;
* `decode?`: the first instruction in a stretch of bytes, and the bytes behind it.

Only the instructions that stubs are made of are known. All others, also such with another operand
size, answer `none`.
-/

namespace Trampoline

/-- The flags of a REX byte, which is any byte whose upper half is `0100`. -/
def Rex.ofByte? (b : Byte) : Option Rex :=
  if b.extractLsb' 4 4 = 0b0100#4 then
    some ⟨b.getLsbD 3, b.getLsbD 2, b.getLsbD 1, b.getLsbD 0⟩
  else
    none

/-- The flags where there is no REX byte. -/
def Rex.absent : Rex := ⟨false, false, false, false⟩

namespace Instruction

/-- The parts of an operand byte. -/
structure Fields where
  mode : BitVec 2
  reg : BitVec 3
  rm : BitVec 3
  deriving DecidableEq

/-- An operand byte taken apart. -/
def Fields.ofByte (b : Byte) : Fields := ⟨b.extractLsb' 6 2, b.extractLsb' 3 3, b.extractLsb' 0 3⟩

/-- The number of a register: its fourth bit stands in the REX byte. -/
def registerNumber (high : Bool) (low : BitVec 3) : BitVec 4 := BitVec.ofBool high ++ low

/-- The floating-point register of a number, if it is one of the eight that carry arguments. -/
def xmm? (n : BitVec 4) : Option Xmm := Xmm.all.find? (·.number == n)

/-- A constant of `n` bytes, and the bytes behind it. -/
def constant? (n : Nat) (bs : Bytes) : Option (Nat × Bytes) :=
  if n ≤ bs.length then some (Bytes.toNat (bs.take n), bs.drop n) else none

/-- A signed constant of 32 bits that is written in one byte or in four. -/
def signed? (short : Bool) (bs : Bytes) : Option (BitVec 32 × Bytes) :=
  if short then (constant? 1 bs).map fun (v, rest) => ((BitVec.ofNat 8 v).signExtend 32, rest)
  else (constant? 4 bs).map fun (v, rest) => (BitVec.ofNat 32 v, rest)

/-- The displacement that an addressing mode announces: none, one byte, or four bytes. -/
def displacement? (mode : BitVec 2) (bs : Bytes) : Option (BitVec 32 × Bytes) :=
  if mode = 0 then some (0, bs) else signed? (mode == 1) bs

/-- What an operand byte can name. -/
inductive Operand
  | register (number : BitVec 4)
  | memory (m : Mem)
  /-- Memory at a distance from the next instruction. -/
  | relative (disp : BitVec 32)
  /-- Memory named through an index, or without a base. -/
  | indexed (scale : BitVec 2) (index : BitVec 4) (base : Option Gpr) (disp : BitVec 32)
  deriving DecidableEq

/-- The operand that the mode and the low bits of an operand byte name. Four in the low bits announces
a SIB byte, where four as the index means none; five without displacement is no base register. -/
def operand? (rex : Rex) (mode : BitVec 2) (rm : BitVec 3) (bs : Bytes) :
    Option (Operand × Bytes) :=
  if mode = 3 then some (.register (registerNumber rex.b rm), bs)
  else if rm = 4 then
    match bs with
    | [] => none
    | sib :: bs =>
      let index := registerNumber rex.x (sib.extractLsb' 3 3)
      let low := sib.extractLsb' 0 3
      let base := Gpr.ofNumber (registerNumber rex.b low)
      if mode = 0 ∧ low = 5 then
        (signed? false bs).map fun (d, rest) =>
          (.indexed (sib.extractLsb' 6 2) index none d, rest)
      else
        (displacement? mode bs).map fun (d, rest) =>
          (if index = 4 then .memory ⟨base, d⟩
            else .indexed (sib.extractLsb' 6 2) index (some base) d, rest)
  else if mode = 0 ∧ rm = 5 then
    (signed? false bs).map fun (d, rest) => (.relative d, rest)
  else
    (displacement? mode bs).map fun (d, rest) =>
      (.memory ⟨Gpr.ofNumber (registerNumber rex.b rm), d⟩, rest)

/-- The operand byte and what belongs to it: the digit in the register field, the operand, and the
bytes behind them. -/
def operands? (rex : Rex) (bs : Bytes) : Option (BitVec 3 × Operand × Bytes) :=
  match bs with
  | [] => none
  | b :: bs =>
    let f := Fields.ofByte b
    (operand? rex f.mode f.rm bs).map fun (o, rest) => (f.reg, o, rest)

/-- The instruction of an opcode of two bytes, whose first byte was read. -/
def escaped? (selector : Option Precision) (rex : Rex) (bs : Bytes) : Option (Instruction × Bytes) :=
  match bs with
  | [] => none
  | opcode :: bs =>
    match operands? rex bs, selector with
    | some (reg, .register rm, rest), none =>
      let dst := Gpr.ofNumber (registerNumber rex.r reg)
      let src := Gpr.ofNumber rm
      if rex.w then none
      else if opcode = 0xBE then some (.moveSigned .byte dst src, rest)
      else if opcode = 0xBF then some (.moveSigned .word dst src, rest)
      else none
    | some (reg, .memory m, rest), some precision =>
      (xmm? (registerNumber rex.r reg)).bind fun x =>
        if opcode = 0x10 then some (.loadFloat precision x m, rest)
        else if opcode = 0x11 then some (.storeFloat precision m x, rest)
        else none
    | _, _ => none

/-- The arithmetic operation of a digit. -/
def arith? (digit : BitVec 3) : Option Arith :=
  if digit = 0 then some .add else if digit = 5 then some .sub else none

/-- The instruction of an opcode of one byte. The operands of all but calls are whole registers, so the
width flag has to be set. -/
def plain? (rex : Rex) (opcode : Byte) (bs : Bytes) : Option (Instruction × Bytes) :=
  if opcode = 0xC3 then some (.ret, bs)
  else if opcode = 0xFF then
    match operands? rex bs with
    | some (digit, .register rm, rest) =>
      if digit = 2 then some (.call (Gpr.ofNumber rm), rest) else none
    | _ => none
  else if !rex.w then none
  else if opcode.extractLsb' 3 5 = 0b10111#5 then
    (constant? 8 bs).map fun (v, rest) =>
      (.moveImm (Gpr.ofNumber (registerNumber rex.b (opcode.extractLsb' 0 3))) (BitVec.ofNat 64 v),
        rest)
  else
    match operands? rex bs with
    | none => none
    | some (reg, operand, rest) =>
      let r := Gpr.ofNumber (registerNumber rex.r reg)
      match operand with
      | .register rm =>
        if opcode = 0x89 then some (.move (Gpr.ofNumber rm) r, rest)
        else if opcode = 0x8B then some (.move r (Gpr.ofNumber rm), rest)
        else if opcode = 0x81 ∨ opcode = 0x83 then do
          let op ← arith? reg
          let (v, rest) ← signed? (opcode == 0x83) rest
          some (.arith op (Gpr.ofNumber rm) v, rest)
        else none
      | .memory m =>
        if opcode = 0x89 then some (.store m r, rest)
        else if opcode = 0x8B then some (.load r m, rest)
        else none
      | .relative _ | .indexed .. => none

/-- An instruction as the machine reads it. -/
structure Decoded where
  instruction : Instruction
  /-- Whether a REX byte stood before the opcode. With one, the numbers 4 to 7 of a byte register name
  the lowest bytes of the registers of those numbers. -/
  hasRex : Bool
  deriving DecidableEq

/-- The instruction that begins with its opcode. -/
def opcode? (selector : Option Precision) (rex : Rex) (bs : Bytes) : Option (Instruction × Bytes) :=
  match bs with
  | [] => none
  | opcode :: bs =>
    if opcode = 0x0F then escaped? selector rex bs
    else if selector = none then plain? rex opcode bs
    else none

/-- The instruction that begins with a REX byte or with its opcode. -/
def afterSelector? (selector : Option Precision) (bs : Bytes) : Option (Decoded × Bytes) :=
  match bs with
  | [] => none
  | b :: rest =>
    match Rex.ofByte? b with
    | some rex => (opcode? selector rex rest).map fun (i, rest) => (⟨i, true⟩, rest)
    | none => (opcode? selector .absent bs).map fun (i, rest) => (⟨i, false⟩, rest)

/-- The first instruction in a stretch of bytes, and the bytes behind it. -/
def decode? (bs : Bytes) : Option (Decoded × Bytes) :=
  match bs with
  | [] => none
  | b :: rest =>
    if b = 0xF3 then afterSelector? (some .single) rest
    else if b = 0xF2 then afterSelector? (some .double) rest
    else afterSelector? none bs

end Instruction

end Trampoline
