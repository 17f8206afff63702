/-!
# Registers

The general and the floating-point registers that generated code names, with their numbers in
instructions.

* `Gpr.number`, `Gpr.ofNumber`: the sixteen general registers and the numbers 0 to 15;
* `Gpr.low`, `Gpr.high`: the three bits of the number that stand in the operand byte, and the
  fourth, which stands in the REX byte;
* `Gpr.needsSib`, `Gpr.needsDisplacement`: the base registers whose operand byte means something
  else when they stand alone;
* `Xmm`: the same for the eight floating-point registers that carry arguments.
-/

namespace Trampoline

/-- A general-purpose register, in machine order. -/
inductive Gpr
  | rax
  | rcx
  | rdx
  | rbx
  | rsp
  | rbp
  | rsi
  | rdi
  | r8
  | r9
  | r10
  | r11
  | r12
  | r13
  | r14
  | r15
  deriving DecidableEq

namespace Gpr

/-- The sixteen registers in machine order. -/
def all : List Gpr :=
  [rax, rcx, rdx, rbx, rsp, rbp, rsi, rdi, r8, r9, r10, r11, r12, r13, r14, r15]

/-- The register's assembly name. -/
def name : Gpr → String
  | rax => "rax"
  | rcx => "rcx"
  | rdx => "rdx"
  | rbx => "rbx"
  | rsp => "rsp"
  | rbp => "rbp"
  | rsi => "rsi"
  | rdi => "rdi"
  | r8 => "r8"
  | r9 => "r9"
  | r10 => "r10"
  | r11 => "r11"
  | r12 => "r12"
  | r13 => "r13"
  | r14 => "r14"
  | r15 => "r15"

/-- The register's number in instructions. -/
def number : Gpr → BitVec 4
  | rax => 0
  | rcx => 1
  | rdx => 2
  | rbx => 3
  | rsp => 4
  | rbp => 5
  | rsi => 6
  | rdi => 7
  | r8 => 8
  | r9 => 9
  | r10 => 10
  | r11 => 11
  | r12 => 12
  | r13 => 13
  | r14 => 14
  | r15 => 15

/-- The register of a number. -/
def ofNumber (n : BitVec 4) : Gpr :=
  all.get ⟨n.toNat, n.isLt⟩

@[simp] theorem ofNumber_number (r : Gpr) : ofNumber r.number = r := by cases r <;> rfl

@[simp] theorem number_ofNumber (n : BitVec 4) : (ofNumber n).number = n := by
  revert n; decide

/-- The three bits of the number that stand in the operand byte. -/
def low (r : Gpr) : BitVec 3 := r.number.extractLsb' 0 3

/-- The fourth bit of the number, which stands in the REX byte. -/
def high (r : Gpr) : Bool := r.number.msb

/-- Whether the register, as a base, is written through a SIB byte: its low bits announce one. -/
def needsSib (r : Gpr) : Bool := r.low == 4

/-- Whether the register, as a base, always takes a displacement: without one its low bits mean an
address relative to the instruction. -/
def needsDisplacement (r : Gpr) : Bool := r.low == 5

end Gpr

/-- A floating-point register that carries arguments. -/
inductive Xmm
  | xmm0
  | xmm1
  | xmm2
  | xmm3
  | xmm4
  | xmm5
  | xmm6
  | xmm7
  deriving DecidableEq

namespace Xmm

/-- The eight registers in machine order. -/
def all : List Xmm := [xmm0, xmm1, xmm2, xmm3, xmm4, xmm5, xmm6, xmm7]

/-- The register's assembly name. -/
def name : Xmm → String
  | xmm0 => "xmm0"
  | xmm1 => "xmm1"
  | xmm2 => "xmm2"
  | xmm3 => "xmm3"
  | xmm4 => "xmm4"
  | xmm5 => "xmm5"
  | xmm6 => "xmm6"
  | xmm7 => "xmm7"

/-- The register's number in instructions. -/
def number : Xmm → BitVec 4
  | xmm0 => 0
  | xmm1 => 1
  | xmm2 => 2
  | xmm3 => 3
  | xmm4 => 4
  | xmm5 => 5
  | xmm6 => 6
  | xmm7 => 7

/-- The three bits of the number that stand in the operand byte. -/
def low (r : Xmm) : BitVec 3 := r.number.extractLsb' 0 3

/-- The fourth bit of the number, which stands in the REX byte. -/
def high (r : Xmm) : Bool := r.number.msb

end Xmm

end Trampoline
