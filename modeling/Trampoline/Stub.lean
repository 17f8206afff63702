import Trampoline.BuildError
import Trampoline.Code

/-!
# Stubs

A stub is the code that a caller enters in place of a native function: it moves the integer
arguments past the two context words, calls the function, has the system's error code saved if that
is asked for, brings the result into the form the caller expects, and returns.

* `Request`: the native function that wants a stub;
* `Stub.program`: the instructions of the stub for a call;
* `Stub.ofRequest`: the stub of a request, or the first thing wrong with it.

The stub of a request depends on its signature only through the number of integer arguments and the
kind of result.
-/

namespace Trampoline

/-- A native function that wants a stub. -/
structure Request where
  /-- The name to publish the function under; unique in a batch. -/
  name : String
  /-- The type of the function, without the two context words. -/
  signature : Signature
  /-- Where the function is. -/
  address : Address
  /-- Whether the system's error code is saved after the call. -/
  savesError : Bool
  deriving DecidableEq

/-- A stub whose addresses are still open. -/
structure Stub where
  name : String
  signature : Signature
  descriptor : String
  code : Code
  deriving DecidableEq

namespace Stub

/-- The number of bytes of the code. -/
def size (s : Stub) : Nat := s.code.size

/-- Bring an argument to the register where the native function looks for it. -/
def moveArgument (dst : Gpr) : Source → Instruction
  | .register src => .move dst src
  | .stack offset => .load dst ⟨.rsp, offset⟩

/-- Bring the first `n` integer arguments to their registers. A register is read before it is
overwritten, and the stack before the stack pointer moves. -/
def moveArguments (n : Nat) : List Item :=
  ((SysV.integerArguments.zip SysV.incomingIntegers).take n).map fun (dst, src) =>
    .instruction (moveArgument dst src)

/-- The stack that the stub reserves. It keeps the stack pointer aligned at calls and leaves room
for a result. -/
def frame (ret : Return) : BitVec 32 := if ret.isFloat then 24 else 8

/-- Call the routine at an address. -/
def callRoutine (target : Address) : List Item :=
  [.loadAddress SysV.callScratch target, .instruction (.call SysV.callScratch)]

/-- Put the result on the stack. -/
def spill : Return → List Item
  | .nothing => []
  | .value (.int _) => [.instruction (.store (Mem.at .rsp) SysV.integerResult)]
  | .value .f32 => [.instruction (.storeFloat .single (Mem.at .rsp) SysV.floatResult)]
  | .value .f64 => [.instruction (.storeFloat .double (Mem.at .rsp) SysV.floatResult)]

/-- Take the result back from the stack. -/
def reload : Return → List Item
  | .nothing => []
  | .value (.int _) => [.instruction (.load SysV.integerResult (Mem.at .rsp))]
  | .value .f32 => [.instruction (.loadFloat .single SysV.floatResult (Mem.at .rsp))]
  | .value .f64 => [.instruction (.loadFloat .double SysV.floatResult (Mem.at .rsp))]

/-- Call the routine that saves the system's error code, with the result out of its reach. -/
def saveError (ret : Return) (saver : Address) : List Item :=
  spill ret ++ callRoutine saver ++ reload ret

/-- Extend a result of one or two bytes to the four that the caller reads. -/
def extend : Return → List Item
  | .value (.int .w8) =>
    [.instruction (.moveSigned .byte SysV.integerResult SysV.integerResult)]
  | .value (.int .w16) =>
    [.instruction (.moveSigned .word SysV.integerResult SysV.integerResult)]
  | _ => []

/-- The instructions of a stub with `integers` integer arguments. -/
def program (integers : Nat) (ret : Return) (target : Address) (saver : Option Address) :
    List Item :=
  -- The frame comes after the moves, which count stack places from the entry.
  moveArguments integers ++ [.instruction (.arith .sub .rsp (frame ret))] ++ callRoutine target ++
    (match saver with
      | some saver => saveError ret saver
      | none => []) ++
    extend ret ++ [.instruction (.arith .add .rsp (frame ret)), .instruction .ret]

/-- How many slots of a list travel in a bank of registers. -/
def countSlots (p : Platform) (b : Bank) (slots : List Slot) : Nat :=
  slots.countP fun s => (Carrier.ofSlot? p s).any (·.bank == b)

/-- The stub of a request, with `saver` the routine that saves the system's error code. The platform
and the convention are looked at first, then the result, the leftmost parameter that no register can
carry, and the numbers of integers and of floats. -/
def ofRequest (p : Platform) (saver : Address) (r : Request) : Except BuildError Stub :=
  let s := r.signature
  if !p.isSysV then .error (.refused r.name (.platform p))
  else if s.convention ≠ .default then .error (.refused r.name (.convention s.convention))
  else
    match Return.ofSlot? p s.ret with
    | none => .error (.unsupportedType r.name s.ret.type)
    | some ret =>
      match s.params.find? fun slot => (Carrier.ofSlot? p slot).isNone with
      | some slot => .error (.unsupportedType r.name slot.type)
      | none =>
        let integers := countSlots p .integer s.params
        let floats := countSlots p .float s.params
        if SysV.maxIntegers < integers then
          .error (.tooManyArguments r.name .integer integers SysV.maxIntegers)
        else if SysV.maxFloats < floats then
          .error (.tooManyArguments r.name .float floats SysV.maxFloats)
        else
          let saver? := if r.savesError then some saver else none
          .ok ⟨r.name, s, s.descriptor p, Code.assemble (program integers ret r.address saver?)⟩

end Stub

end Trampoline
