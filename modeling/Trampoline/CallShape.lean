import Trampoline.Signature
import Trampoline.SysV

/-!
# Call shapes

Whether the values of a signature can travel in registers, and in which.

* `Carrier`: how one value travels, with its `Bank` of registers;
* `Return`: how a result comes back;
* `CallShape`: the carriers of a whole call;
* `Refusal`: why a signature gets no stub, with its `message`;
* `Signature.callShape`: the shape, or the first reason against it in the order platform, calling
  convention, result, leftmost parameter, number of integers, number of floats.
-/

namespace Trampoline

/-- A bank of registers that arguments travel in. -/
inductive Bank
  | integer
  | float
  deriving DecidableEq

/-- The name of the bank. -/
def Bank.name : Bank → String
  | integer => "integer"
  | float => "float"

/-- How a value travels in a register. -/
inductive Carrier
  | int (width : Width)
  | f32
  | f64
  deriving DecidableEq

namespace Carrier

/-- How the value of a slot travels, if a register can carry it. -/
def ofSlot? (p : Platform) (s : Slot) : Option Carrier :=
  match s.width? p with
  | some w => some (.int w)
  | none =>
    match s.type with
    | .f32 => some .f32
    | .f64 => some .f64
    | _ => none

/-- The bank of the carrier's register. -/
def bank : Carrier → Bank
  | int _ => .integer
  | f32 | f64 => .float

end Carrier

/-- How a result comes back. -/
inductive Return
  | nothing
  | value (carrier : Carrier)
  deriving DecidableEq

namespace Return

/-- How the result of a slot comes back, if there is none or a register can carry it. -/
def ofSlot? (p : Platform) (s : Slot) : Option Return :=
  if s.type = .void then some .nothing else (Carrier.ofSlot? p s).map .value

/-- Whether the result comes back in a floating-point register. -/
def isFloat : Return → Bool
  | nothing => false
  | value c => c.bank == .float

end Return

/-- How the values of a call travel. -/
structure CallShape where
  /-- The carriers of the arguments in the order of the parameters. -/
  args : List Carrier
  ret : Return
  deriving DecidableEq

namespace CallShape

/-- How many arguments travel in a bank of registers. -/
def count (s : CallShape) (b : Bank) : Nat := s.args.countP (·.bank == b)

end CallShape

/-- Why a signature gets no stub. -/
inductive Refusal
  /-- The platform does not follow the System V convention. -/
  | platform (p : Platform)
  | convention (c : Convention)
  /-- No register can carry the result. -/
  | result (type : ValueType)
  /-- No register can carry a parameter; positions count from zero. -/
  | parameter (index : Nat) (type : ValueType)
  | tooManyIntegers (count : Nat)
  | tooManyFloats (count : Nat)
  /-- Stubs are switched off. -/
  | disabled
  deriving DecidableEq

/-- The reason in words. -/
def Refusal.message : Refusal → String
  | platform p => s!"no stub compiler for {p.text}"
  | convention c => s!"unsupported calling convention {c.name}"
  | result type => s!"unsupported return type {type.name}"
  | parameter index type => s!"unsupported type {type.name} for parameter {index}"
  | tooManyIntegers count => s!"{count} integer arguments (limit {SysV.maxIntegers})"
  | tooManyFloats count => s!"{count} float arguments (limit {SysV.maxFloats})"
  | disabled => "stub compilation disabled"

namespace Signature

/-- The carriers of parameters whose first stands at position `index`, or the leftmost parameter
that no register can carry. -/
def carriersFrom (p : Platform) (index : Nat) : List Slot → Except Refusal (List Carrier)
  | [] => .ok []
  | s :: rest =>
    match Carrier.ofSlot? p s with
    | none => .error (.parameter index s.type)
    | some c => (carriersFrom p (index + 1) rest).map (c :: ·)

/-- The shape of a call, or the first reason against it. -/
def callShape (p : Platform) (s : Signature) : Except Refusal CallShape :=
  if !p.isSysV then .error (.platform p)
  else if s.convention ≠ .default then .error (.convention s.convention)
  else
    match Return.ofSlot? p s.ret with
    | none => .error (.result s.ret.type)
    | some ret =>
      match carriersFrom p 0 s.params with
      | .error r => .error r
      | .ok args =>
        let shape : CallShape := ⟨args, ret⟩
        if SysV.maxIntegers < shape.count .integer then
          .error (.tooManyIntegers (shape.count .integer))
        else if SysV.maxFloats < shape.count .float then
          .error (.tooManyFloats (shape.count .float))
        else
          .ok shape

end Signature

end Trampoline
