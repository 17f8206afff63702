import Mathlib.Tactic.IntervalCases
import Trampoline.Proofs.Execution
import Trampoline.Stub

/-!
# Moving arguments

A stub moves its integer arguments one after the other, and some registers are both where an argument
arrives and where another one goes. Done in the order of the table the moves have the effect of a single
simultaneous assignment.

* `Source.value`: what a routine finds where an argument arrives;
* `gpr_moved`: a row of moves in which nothing is read after it was overwritten;
* `integerArgument_moved`: the arguments of the native function, in terms of the machine as the
  stub was entered.
-/

namespace Trampoline

/-- What stands where an argument arrives. -/
def Source.value (m : Machine) : Source → Word
  | register r => m.gpr r
  | stack offset => m.memory.word (m.rsp + offset.signExtend 64)

namespace Stub

/-- The move of an argument. -/
def moveOf (a : Gpr × Source) : Instruction := moveArgument a.1 a.2

theorem next_moveOf (m : Machine) (a : Gpr × Source) :
    m.next (moveOf a) =
      { m.setGpr a.1 (a.2.value m) with
        ip := m.ip + BitVec.ofNat 64 (moveOf a).encode.length } := by
  obtain ⟨dst, src⟩ := a
  cases src <;> rfl

theorem moveOf_isPlain (a : Gpr × Source) : (moveOf a).isPlain = true := by
  obtain ⟨dst, src⟩ := a
  cases src <;> rfl

/-- The machine after a row of moves. -/
def moved (l : List (Gpr × Source)) (m : Machine) : Machine := (l.map moveOf).foldl Machine.next m

@[simp] theorem moved_cons (a : Gpr × Source) (l : List (Gpr × Source)) (m : Machine) :
    moved (a :: l) m = moved l (m.next (moveOf a)) := rfl

/-- Moves change only the registers where arguments go. -/
theorem moved_frame (l : List (Gpr × Source)) (m : Machine) :
    (∀ r, r ∉ l.map Prod.fst → (moved l m).gpr r = m.gpr r) ∧ (moved l m).xmm = m.xmm ∧
      (moved l m).memory = m.memory := by
  induction l generalizing m with
  | nil => exact ⟨fun _ _ => rfl, rfl, rfl⟩
  | cons a l ih =>
    obtain ⟨hgpr, hxmm, hmem⟩ := ih (m.next (moveOf a))
    rw [moved_cons]
    refine ⟨fun r hr => ?_, ?_, ?_⟩
    · rw [List.map_cons, List.mem_cons, not_or] at hr
      rw [hgpr r hr.2, next_moveOf]
      exact Machine.gpr_setGpr_of_ne _ _ hr.1
    · rw [hxmm, next_moveOf]; rfl
    · rw [hmem, next_moveOf]; rfl

/-- A row of moves in which no place is written twice, none is read after it was written, and the stack
pointer stays: every argument goes where it should, as if all were moved at once. -/
theorem gpr_moved {l : List (Gpr × Source)} (hrsp : ∀ a ∈ l, a.1 ≠ .rsp)
    (hdst : (l.map Prod.fst).Nodup) (hsrc : l.Pairwise fun a b => b.2 ≠ .register a.1) (m : Machine) :
    ∀ a ∈ l, (moved l m).gpr a.1 = a.2.value m := by
  induction l generalizing m with
  | nil => intro a ha; cases ha
  | cons b l ih =>
    rw [List.map_cons, List.nodup_cons] at hdst
    rw [List.pairwise_cons] at hsrc
    intro a ha
    rw [moved_cons]
    rcases List.mem_cons.1 ha with rfl | ha
    · rw [(moved_frame l _).1 _ hdst.1, next_moveOf]
      exact Machine.gpr_setGpr_self _ _ _
    · rw [ih (fun a h => hrsp a (List.mem_cons_of_mem _ h)) hdst.2 hsrc.2 _ a ha, next_moveOf]
      -- The source of a later move is not the register that this move wrote.
      have hne := hsrc.1 a ha
      cases hs : a.2 with
      | register r =>
        refine Machine.gpr_setGpr_of_ne _ _ ?_
        rintro rfl
        exact hne hs
      | stack offset =>
        have hkeep : (m.setGpr b.1 (b.2.value m)).rsp = m.rsp :=
          Machine.gpr_setGpr_of_ne _ _ (hrsp b List.mem_cons_self).symm
        exact congrArg (fun a => m.memory.word (a + offset.signExtend 64)) hkeep

/-- The places of integer arguments, each with the place where it arrives. -/
def argumentTable : List (Gpr × Source) := SysV.integerArguments.zip SysV.incomingIntegers

/-- Each line of the table brings an argument two places forward. -/
theorem argumentTable_get {i : Nat} (hi : i < 6) :
    ∃ a, argumentTable[i]? = some a ∧ (∀ m, SysV.integerArgument m i = m.gpr a.1) ∧
      ∀ m, SysV.integerArgument m (i + 2) = a.2.value m := by
  interval_cases i
  all_goals exact ⟨_, rfl, fun _ => rfl, fun _ => rfl⟩

/-- **The moves are a simultaneous assignment.** After the first `n` moves a native function finds its
first `n` integer arguments where the convention wants them, and each has the value of the argument two
places behind it before the moves. -/
theorem integerArgument_moved {n : Nat} (hn : n ≤ 6) (m : Machine) :
    ∀ i < n, SysV.integerArgument (moved (argumentTable.take n) m) i =
      SysV.integerArgument m (i + 2) := by
  intro i hi
  obtain ⟨a, hget, hdst, hsrc⟩ := argumentTable_get (by omega : i < 6)
  have hsub : (argumentTable.take n).Sublist argumentTable := List.take_sublist n argumentTable
  have hmem : a ∈ argumentTable.take n :=
    List.mem_of_getElem? (i := i) (by rw [List.getElem?_take_of_lt hi, hget])
  have hrsp : ∀ a ∈ argumentTable, a.1 ≠ .rsp := by decide
  have hnodup : (argumentTable.map Prod.fst).Nodup := by decide
  have hlater : argumentTable.Pairwise fun a b => b.2 ≠ .register a.1 := by decide
  rw [hdst, hsrc]
  exact gpr_moved (fun a h => hrsp a (hsub.subset h)) (hnodup.sublist (hsub.map _))
    (hlater.sublist hsub) m a hmem

/-- The moves keep the stack pointer and the registers that are not the routine's own. -/
theorem gpr_moved_argumentTable (n : Nat) (m : Machine) :
    ∀ r ∈ .rsp :: SysV.calleeSaved, (moved (argumentTable.take n) m).gpr r = m.gpr r := by
  intro r hr
  have hsub : ((argumentTable.take n).map Prod.fst).Sublist (argumentTable.map Prod.fst) :=
    (List.take_sublist n argumentTable).map _
  have hown : ∀ r ∈ .rsp :: SysV.calleeSaved, r ∉ argumentTable.map Prod.fst := by decide
  exact (moved_frame _ m).1 r fun h => hown r hr (hsub.subset h)

end Stub

end Trampoline
