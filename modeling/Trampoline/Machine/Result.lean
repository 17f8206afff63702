import Trampoline.CallShape
import Trampoline.Machine

/-!
# Results in registers

* `Return.read`: what a caller takes for the result of a call that has come back;
* `Return.extended`: the result of a native function, brought into the form that callers read;
* `Return.Same`: the same result in two machines.

A caller reads integers of one or two bytes as four.
-/

namespace Trampoline

/-- Whether integers of the width are extended before they are read. -/
def Width.isShort (w : Width) : Bool := w == .w8 || w == .w16

namespace Return

/-- What a caller takes for the result. -/
def read : Return → Machine → Word
  | nothing, _ => 0
  | value (.int w), m =>
    if w.isShort then ((m.gpr SysV.integerResult).setWidth 32).setWidth 64
    else m.gpr SysV.integerResult
  | value .f32, m => ((m.xmm SysV.floatResult).setWidth 32).setWidth 64
  | value .f64, m => (m.xmm SysV.floatResult).setWidth 64

/-- The result of a native function that has come back, as its caller should see it: a short integer is
extended by its sign to four bytes. -/
def extended : Return → Machine → Word
  | value (.int w), m =>
    if w.isShort then ((w.signExtend (m.gpr SysV.integerResult)).setWidth 32).setWidth 64
    else m.gpr SysV.integerResult
  | ret, m => ret.read m

/-- A caller looks at the two registers of results. -/
theorem read_congr (ret : Return) {m m' : Machine}
    (hgpr : m'.gpr SysV.integerResult = m.gpr SysV.integerResult) (hxmm : m'.xmm = m.xmm) :
    ret.read m' = ret.read m := by
  rcases ret with _ | w | _ | _ <;> simp only [read, hgpr, hxmm]

/-- Two machines with the same result of a native function in them. -/
def Same : Return → Machine → Machine → Prop
  | nothing, _, _ => True
  | value (.int _), m, m' => m'.gpr SysV.integerResult = m.gpr SysV.integerResult
  | value .f32, m, m' => (m'.xmm SysV.floatResult).setWidth 32 = (m.xmm SysV.floatResult).setWidth 32
  | value .f64, m, m' => (m'.xmm SysV.floatResult).setWidth 64 = (m.xmm SysV.floatResult).setWidth 64

theorem Same.refl (ret : Return) (m : Machine) : ret.Same m m := by
  rcases ret with _ | w | _ | _ <;> first | rfl | trivial

theorem Same.extended {ret : Return} {m m' : Machine} (h : ret.Same m m') :
    ret.extended m' = ret.extended m := by
  rcases ret with _ | w | _ | _
  case nothing => rfl
  case value.int => simp only [Return.extended, show m'.gpr _ = m.gpr _ from h]
  case value.f32 => exact congrArg (BitVec.setWidth 64) h
  case value.f64 => exact h

end Return

end Trampoline
