import Trampoline.CallShape

/-!
# Verdicts

The call shape of a signature as it is found in one pass over the parameters: each argument is counted
in its bank when its carrier is known, and the counts are compared with the registers at the end.

* `Verdict`: a call shape with its two counts; `CallShape.verdict`: the verdict that a shape stands for;
* `Verdict.start`, `Verdict.add`: before the first argument, and one argument more;
* `Signature.tally`: the parameters of a list, one after the other;
* `Signature.verdict`: the verdict, or the first reason against it.
-/

namespace Trampoline

/-- How the values of a call travel, with the number of arguments in each bank of registers. -/
structure Verdict where
  /-- The carriers of the arguments in the order of the parameters. -/
  args : List Carrier
  ret : Return
  integers : Nat
  floats : Nat
  deriving DecidableEq

namespace Verdict

/-- The result is known, and no argument was looked at. -/
def start (ret : Return) : Verdict := ⟨[], ret, 0, 0⟩

/-- One more argument, counted in its bank. -/
def add (v : Verdict) (c : Carrier) : Verdict :=
  match c.bank with
  | .integer => { v with args := v.args ++ [c], integers := v.integers + 1 }
  | .float => { v with args := v.args ++ [c], floats := v.floats + 1 }

end Verdict

/-- A call shape with the counts of its arguments. -/
def CallShape.verdict (s : CallShape) : Verdict :=
  ⟨s.args, s.ret, s.count .integer, s.count .float⟩

namespace Signature

/-- Look at parameters one after the other, of which the first stands at position `index`. -/
def tally (p : Platform) (index : Nat) (v : Verdict) : List Slot → Except Refusal Verdict
  | [] => .ok v
  | s :: rest =>
    match Carrier.ofSlot? p s with
    | none => .error (.parameter index s.type)
    | some c => tally p (index + 1) (v.add c) rest

/-- The verdict on a signature, or the first reason against it. -/
def verdict (p : Platform) (s : Signature) : Except Refusal Verdict :=
  if !p.isSysV then .error (.platform p)
  else if s.convention ≠ .default then .error (.convention s.convention)
  else
    match Return.ofSlot? p s.ret with
    | none => .error (.result s.ret.type)
    | some ret =>
      match tally p 0 (.start ret) s.params with
      | .error r => .error r
      | .ok v =>
        if SysV.maxIntegers < v.integers then .error (.tooManyIntegers v.integers)
        else if SysV.maxFloats < v.floats then .error (.tooManyFloats v.floats)
        else .ok v

end Signature

end Trampoline
