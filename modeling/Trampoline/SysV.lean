import Trampoline.Register

/-!
# Registers of the System V convention

Where the arguments of a stub arrive, and where the native function behind it looks for them.

A caller passes two context words before the arguments, so every integer argument arrives two places
later than the native function expects it; the last two arrive on the stack. Floating-point
arguments have registers of their own and stay where they are.

* `SysV.integerArguments`, `SysV.floatArguments`: the argument registers in order;
* `SysV.incomingIntegers`: where each integer argument arrives;
* `SysV.integerResult`, `SysV.floatResult`: where results come back;
* `SysV.callScratch`: the register that holds the target of a call.
-/

namespace Trampoline

/-- Where an argument arrives. -/
inductive Source
  | register (r : Gpr)
  /-- On the stack, at a distance in bytes from where the stack pointer is on entry. -/
  | stack (offset : BitVec 32)
  deriving DecidableEq

namespace SysV

/-- The registers of integer arguments. -/
def integerArguments : List Gpr := [.rdi, .rsi, .rdx, .rcx, .r8, .r9]

/-- The registers of floating-point arguments. -/
def floatArguments : List Xmm := Xmm.all

/-- Where integer arguments arrive after the two context words. -/
def incomingIntegers : List Source :=
  [.register .rdx, .register .rcx, .register .r8, .register .r9, .stack 8, .stack 16]

/-- The register of an integer result. -/
def integerResult : Gpr := .rax

/-- The register of a floating-point result. -/
def floatResult : Xmm := .xmm0

/-- The register that holds the target of a call. -/
def callScratch : Gpr := .rax

/-- How many integer arguments have registers. -/
def maxIntegers : Nat := 6

/-- How many floating-point arguments have registers. -/
def maxFloats : Nat := 8

end SysV

end Trampoline
