import Trampoline.Address
import Trampoline.Register

/-!
# Instructions

The x86-64 instructions that stubs are made of.

* `Mem`: a memory operand, a base register and a signed displacement;
* `Instruction`: the instructions, operands in the order destination, source.
-/

namespace Trampoline

/-- The memory at a base register plus a signed displacement. -/
structure Mem where
  base : Gpr
  disp : BitVec 32
  deriving DecidableEq

/-- The memory that a register points at. -/
def Mem.at (base : Gpr) : Mem := ⟨base, 0⟩

/-- The sizes that a sign-extending move reads: one byte, or a word of two. -/
inductive ShortWidth
  | byte
  | word
  deriving DecidableEq

/-- The two arithmetic operations with a constant. -/
inductive Arith
  | add
  | sub
  deriving DecidableEq

/-- The two formats of floating-point numbers. -/
inductive Precision
  | single
  | double
  deriving DecidableEq

/-- An x86-64 instruction. -/
inductive Instruction
  /-- `mov dst, src` on whole registers. -/
  | move (dst src : Gpr)
  /-- `mov dst, [src]` on a whole register. -/
  | load (dst : Gpr) (src : Mem)
  /-- `mov [dst], src` on a whole register. -/
  | store (dst : Mem) (src : Gpr)
  /-- `mov dst, value` with a constant of 64 bits. -/
  | moveImm (dst : Gpr) (value : Word)
  /-- `movsx dst, src` into the low half of a register, which clears the upper half. -/
  | moveSigned (size : ShortWidth) (dst src : Gpr)
  /-- `add dst, value` or `sub dst, value` on a whole register with a signed constant. -/
  | arith (op : Arith) (dst : Gpr) (value : BitVec 32)
  /-- `call target` through a register. -/
  | call (target : Gpr)
  /-- `ret`. -/
  | ret
  /-- `movss dst, [src]` or `movsd dst, [src]`. -/
  | loadFloat (precision : Precision) (dst : Xmm) (src : Mem)
  /-- `movss [dst], src` or `movsd [dst], src`. -/
  | storeFloat (precision : Precision) (dst : Mem) (src : Xmm)
  deriving DecidableEq

end Trampoline
