import Trampoline.Linkage

/-!
# Histories of a compiler

What a compiler is asked for between its making and any later point, with attachments among whatever
else is linked by then.

* `Compiler.Call`, `Compiler.after`: one call, and the compiler after it;
* `Compiler.resets`: whether a call makes the compiler start again;
* `Compiler.taken`: how the requests with pending stubs follow the answers;
* `Compiler.history`: a compiler and these requests after any sequence of calls.
-/

namespace Trampoline

namespace Compiler

/-- A call of a compiler. An attachment finds any linkage, asks any system and goes to any receiver. -/
inductive Call : Type 1
  | compile (r : Request)
  | attach {σ : Type} (l : Linkage) (sys : System) (receiver : Receiver σ) (s : σ)

/-- The compiler after a call. -/
def after (c : Compiler) : Call → Compiler
  | .compile r => (c.compile r).1
  | .attach l sys receiver s => (l.attach sys c receiver s).compiler

/-- Whether a call makes the compiler start again: every attachment does, and every request that is
refused for another reason than its name. -/
def resets (c : Compiler) : Call → Bool
  | .compile r =>
    match (c.compile r).2 with
    | .ok () | .error (.duplicate _) => false
    | .error _ => true
  | .attach .. => true

/-- The requests that were taken since the compiler last started again. -/
def taken (c : Compiler) (requests : List Request) (call : Call) : List Request :=
  if c.resets call then []
  else
    match call with
    | .compile r => if (c.compile r).2.isOk then requests ++ [r] else requests
    | .attach .. => requests

/-- A new compiler after a sequence of calls, and the requests that it took. -/
def history (p : Platform) (settings : Settings) (calls : List Call) : Compiler × List Request :=
  calls.foldl (fun (c, requests) call => (c.after call, c.taken requests call)) (.new p settings, [])

end Compiler

end Trampoline
