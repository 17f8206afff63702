import Mathlib.Algebra.Ring.Nat
import Trampoline.Bytes.Lemmas
import Trampoline.Machine

/-!
# Reading and writing memory

* `Store.read_congr`, `Store.read_add`: a read depends on the bytes it reads, one after the other;
* `Store.write_of_le`, `Store.number_write`: what a write leaves, and what it puts;
* `Machine.gpr_setGpr_self`, `Machine.execute_ip`: the small laws of registers and of instructions.
-/

namespace Trampoline

namespace Store

variable {s t : Store} {a : Address}

@[simp] theorem length_read (s : Store) (a : Address) (n : Nat) : (s.read a n).length = n := by
  simp [read]

theorem read_congr {n : Nat}
    (h : ∀ i < n, s (a + BitVec.ofNat 64 i) = t (a + BitVec.ofNat 64 i)) :
    s.read a n = t.read a n :=
  List.map_congr_left fun i hi => h i (List.mem_range.1 hi)

theorem number_congr {n : Nat}
    (h : ∀ i < n, s (a + BitVec.ofNat 64 i) = t (a + BitVec.ofNat 64 i)) :
    s.number a n = t.number a n := by
  rw [number, number, read_congr h]

/-- A read goes on behind its first bytes. -/
theorem read_add (s : Store) (a : Address) (n k : Nat) :
    s.read a (n + k) = s.read a n ++ s.read (a + BitVec.ofNat 64 n) k := by
  simp only [read, List.range_add, List.map_append, List.map_map]
  congr 1
  apply List.map_congr_left
  intro i _
  simp only [Function.comp_apply, BitVec.ofNat_add, BitVec.add_assoc]

theorem write_of_le {bs : Bytes} {x : Address} (h : bs.length ≤ (x - a).toNat) :
    s.write a bs x = s x := by
  rw [write, List.getElem?_eq_none h, Option.getD_none]

theorem distance {i : Nat} (h : i < 2 ^ 64) : (a + BitVec.ofNat 64 i - a).toNat = i := by
  rw [BitVec.add_comm, BitVec.add_sub_cancel, BitVec.toNat_ofNat, Nat.mod_eq_of_lt h]

/-- What was written is read back. -/
theorem read_write (s : Store) (a : Address) {bs : Bytes} (h : bs.length ≤ 2 ^ 64) :
    (s.write a bs).read a bs.length = bs := by
  apply List.ext_getElem (length_read _ _ _)
  intro i h1 h2
  simp only [read, List.getElem_map, List.getElem_range, write]
  rw [distance (by omega), List.getElem?_eq_getElem h2, Option.getD_some]

theorem number_write (s : Store) (a : Address) {n : Nat} (hn : n ≤ 8) (v : Nat) :
    (s.write a (Bytes.ofNat n v)).number a n = BitVec.ofNat 64 (v % 256 ^ n) := by
  have hl : (Bytes.ofNat n v).length = n := Bytes.length_ofNat n v
  have h := read_write s a (by omega : (Bytes.ofNat n v).length ≤ 2 ^ 64)
  rw [hl] at h
  rw [number, h, Bytes.toNat_ofNat]

@[simp] theorem word_writeWord (s : Store) (a : Address) (v : Word) :
    (s.writeWord a v).word a = v := by
  have h : v.toNat < 256 ^ 8 := v.isLt
  rw [word, writeWord, number_write s a (by omega), Nat.mod_eq_of_lt h, BitVec.ofNat_toNat,
    BitVec.setWidth_eq]

theorem writeWord_of_le {v : Word} {x : Address} (h : 8 ≤ (x - a).toNat) :
    s.writeWord a v x = s x :=
  write_of_le (by rw [Bytes.length_ofNat]; exact h)

end Store

namespace Machine

@[simp] theorem gpr_setGpr_self (m : Machine) (r : Gpr) (v : Word) : (m.setGpr r v).gpr r = v :=
  if_pos rfl

theorem gpr_setGpr_of_ne (m : Machine) {q r : Gpr} (v : Word) (h : q ≠ r) :
    (m.setGpr r v).gpr q = m.gpr q :=
  if_neg h

@[simp] theorem xmm_setGpr (m : Machine) (r : Gpr) (v : Word) : (m.setGpr r v).xmm = m.xmm := rfl

@[simp] theorem xmm_setXmm_self (m : Machine) (r : Xmm) (v : BitVec 128) :
    (m.setXmm r v).xmm r = v :=
  if_pos rfl

/-- With the stack pointer alone as its address an operand names the top of the stack. -/
@[simp] theorem address_at (m : Machine) (r : Gpr) : m.address (Mem.at r) = m.gpr r := by
  simp [address, Mem.at]

end Machine

namespace Instruction

/-- Whether the instruction behind this one comes next in any case. -/
def isPlain : Instruction → Bool
  | call _ | ret => false
  | _ => true

end Instruction

/-- An instruction that is neither a call nor a return leaves it to the next one. -/
theorem Machine.execute_ip {i : Instruction} (h : i.isPlain = true) (hasRex : Bool) (m : Machine) :
    (m.execute hasRex i).ip = m.ip := by
  cases i with
  | arith op dst v => cases op <;> rfl
  | call target => cases h
  | ret => cases h
  | _ => rfl

end Trampoline
