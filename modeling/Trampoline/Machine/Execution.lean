import Trampoline.Machine
import Trampoline.SysV

/-!
# Running code

Code that lies somewhere in memory is run from its first byte. It may call routines of which only the
calling convention is known, and it ends with a return.

* `Span`, `Stack`: where code and stack lie;
* `Routines`: what is behind the calls that the code makes;
* `Execution`: a machine under way and the calls it has made; `Execution.step`, `Execution.run`;
* `Returns`: the code runs to its last byte, which is a return;
* `SysV.integerArgument`: where a routine finds its integer arguments when it is entered;
* `SysV.Kept`: what every routine that follows the convention leaves as it was;
* `Enters`: how a caller enters code.

Leaving the code in any other way than by a call or a return ends a run without a result.
-/

namespace Trampoline

/-- A stretch of memory. -/
structure Span where
  start : Address
  size : Nat

/-- Whether an address lies in the stretch. -/
def Span.Contains (s : Span) (a : Address) : Prop := (a - s.start).toNat < s.size

/-- The part of memory that serves as the stack. It does not go on at address zero. -/
structure Stack where
  low : Nat
  high : Nat
  high_le : high ≤ wordLimit

/-- Whether an address lies in the stack. -/
def Stack.Contains (s : Stack) (a : Address) : Prop := s.low ≤ a.toNat ∧ a.toNat < s.high

/-- What the routines behind the calls do: from the machine as the routine of the `n`-th call is
entered to the machine as it comes back. -/
abbrev Routines := Nat → Machine → Machine

/-- A call that was made: the machine as the routine was entered, and as it came back. -/
structure Call where
  entered : Machine
  left : Machine

/-- Code under way. -/
structure Execution where
  machine : Machine
  /-- The calls so far, in order. -/
  calls : List Call
  /-- Whether the code has returned to its caller. -/
  returned : Bool

namespace Execution

/-- Code that is about to begin. -/
def start (m : Machine) : Execution := ⟨m, [], false⟩

/-- Carry out the next instruction, which has to lie in the code as a whole. A call includes all that
the routine does. -/
def step (code : Span) (routines : Routines) (e : Execution) : Option Execution :=
  if e.returned then none
  else
    match Instruction.decode? (e.machine.memory.read e.machine.ip Instruction.maxLength) with
    | none => none
    | some (d, rest) =>
      let length := Instruction.maxLength - rest.length
      if code.size < (e.machine.ip - code.start).toNat + length then none
      else
        let next := { e.machine with ip := e.machine.ip + BitVec.ofNat 64 length }
        let m := next.execute d.hasRex d.instruction
        match d.instruction with
        | .call _ =>
          let left := routines e.calls.length m
          some { e with machine := left, calls := e.calls ++ [⟨m, left⟩] }
        | .ret => some { e with machine := m, returned := true }
        | _ => some { e with machine := m }

/-- Carry out `n` instructions. -/
def run (code : Span) (routines : Routines) : Nat → Execution → Option Execution
  | 0, e => some e
  | n + 1, e => (e.step code routines).bind (run code routines n)

end Execution

/-- The code, entered with the machine `m`, runs to its last byte, which is a return, and `e` is what it
leaves. -/
def Returns (code : Span) (routines : Routines) (m : Machine) (e : Execution) : Prop :=
  ∃ n last, (Execution.start m).run code routines n = some last ∧
    last.machine.ip = code.start + BitVec.ofNat 64 (code.size - 1) ∧
    last.step code routines = some e ∧ e.returned = true

namespace SysV

/-- The registers that a routine gives back as it got them, besides the stack pointer. -/
def calleeSaved : List Gpr := [.rbx, .rbp, .r12, .r13, .r14, .r15]

/-- The integer arguments of a routine that is just entered. The return address stands on top of the
stack, and the arguments that have no register follow it. -/
def integerArgument (m : Machine) : Nat → Word
  | 0 => m.gpr .rdi
  | 1 => m.gpr .rsi
  | 2 => m.gpr .rdx
  | 3 => m.gpr .rcx
  | 4 => m.gpr .r8
  | 5 => m.gpr .r9
  | n + 6 => m.memory.word (m.rsp + BitVec.ofNat 64 (8 * (n + 1)))

/-- What a routine that follows the convention leaves as it was, with `code` the code that it must not
change: it comes back to its caller, and it keeps the registers that are not its own and the stack from
where the stack pointer was before the call. -/
structure Kept (code : Span) (stack : Stack) (entered left : Machine) : Prop where
  ip : left.ip = entered.memory.word entered.rsp
  rsp : left.rsp = entered.rsp + 8
  saved : ∀ r ∈ calleeSaved, left.gpr r = entered.gpr r
  code : ∀ a, code.Contains a → left.memory a = entered.memory a
  stack : ∀ a, stack.Contains a → entered.rsp.toNat + 8 ≤ a.toNat →
    left.memory a = entered.memory a

/-- Whether all routines follow the convention, however they are entered. -/
def Conform (code : Span) (stack : Stack) (routines : Routines) : Prop :=
  ∀ n m, Kept code stack m (routines n m)

end SysV

/-- How a caller enters the code `bytes`: its first byte comes next, and the stack, which is apart from
the code, holds the return address and has room for the frame of a stub and for one more return
address. -/
structure Enters (bytes : Bytes) (code : Span) (stack : Stack) (m : Machine) : Prop where
  ip : m.ip = code.start
  size : code.size = bytes.length
  loaded : m.memory.read code.start bytes.length = bytes
  apart : ∀ a, stack.Contains a → ¬ code.Contains a
  room : stack.low + 32 ≤ m.rsp.toNat
  top : m.rsp.toNat + 8 ≤ stack.high

end Trampoline
