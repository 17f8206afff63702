import Mathlib.Data.Nat.Basic
import Mathlib.Order.Basic
import Mathlib.Tactic.Conv
import Trampoline.Machine.Execution
import Trampoline.Machine.Lemmas
import Trampoline.Proofs.Decoding

/-!
# Running encoded instructions

A machine whose code is made of encoded instructions carries out these instructions, one after the
other.

* `Upcoming code m is`: from the next instruction on, the code is the encoding of `is`;
* `step_plain`, `step_call`, `step_ret`: one step, by what the next instruction is;
* `Reaches`: any number of steps; `reaches_block`: a row of instructions that neither jump nor write;
* `Returns.unique`: there is one way only for code to come back.
-/

namespace Trampoline

/-- The bytes of a row of instructions. -/
def Instruction.encodeAll (is : List Instruction) : Bytes := is.flatMap encode

@[simp] theorem Instruction.encodeAll_cons (i : Instruction) (is : List Instruction) :
    encodeAll (i :: is) = i.encode ++ encodeAll is := rfl

/-- The machine after its next instruction, when that is `i`. -/
def Machine.next (m : Machine) (i : Instruction) : Machine :=
  { m with ip := m.ip + BitVec.ofNat 64 i.encode.length }.execute i.hasRex i

/-- From the next instruction on, the code is the encoding of a row of instructions. -/
structure Upcoming (code : Span) (m : Machine) (is : List Instruction) : Prop where
  place : ∃ offset, m.ip = code.start + BitVec.ofNat 64 offset ∧
    offset + (Instruction.encodeAll is).length = code.size
  loaded : m.memory.read m.ip (Instruction.encodeAll is).length = Instruction.encodeAll is

namespace Upcoming

variable {code : Span} {m m' : Machine} {i : Instruction} {is : List Instruction}

/-- The bytes of the upcoming instructions lie in the code. -/
theorem contains (h : Upcoming code m is) {k : Nat} (hk : k < (Instruction.encodeAll is).length) :
    code.Contains (m.ip + BitVec.ofNat 64 k) := by
  obtain ⟨offset, hip, hsize⟩ := h.place
  have hd : m.ip + BitVec.ofNat 64 k - code.start = BitVec.ofNat 64 (offset + k) := by
    rw [hip, BitVec.ofNat_add, BitVec.add_assoc, BitVec.add_comm code.start, BitVec.add_sub_cancel]
  have hle := Nat.mod_le (offset + k) (2 ^ 64)
  rw [Span.Contains, hd, BitVec.toNat_ofNat]
  omega

/-- The next instruction lies in the code as a whole. -/
theorem inside (h : Upcoming code m (i :: is)) :
    (m.ip - code.start).toNat + i.encode.length ≤ code.size := by
  obtain ⟨offset, hip, hsize⟩ := h.place
  have hd : m.ip - code.start = BitVec.ofNat 64 offset := by
    rw [hip, BitVec.add_comm, BitVec.add_sub_cancel]
  have hle := Nat.mod_le offset (2 ^ 64)
  rw [Instruction.encodeAll_cons, List.length_append] at hsize
  rw [hd, BitVec.toNat_ofNat]
  omega

/-- The machine finds the next instruction's bytes, and then those of the others. -/
theorem read_next (h : Upcoming code m (i :: is)) :
    m.memory.read m.ip i.encode.length = i.encode ∧
      m.memory.read (m.ip + BitVec.ofNat 64 i.encode.length) (Instruction.encodeAll is).length =
        Instruction.encodeAll is := by
  have hl := h.loaded
  rw [Instruction.encodeAll_cons, List.length_append, Store.read_add] at hl
  exact List.append_inj hl (Store.length_read _ _ _)

theorem decode? (h : Upcoming code m (i :: is)) :
    Instruction.decode? (m.memory.read m.ip Instruction.maxLength) =
      some (⟨i, i.hasRex⟩, m.memory.read (m.ip + BitVec.ofNat 64 i.encode.length)
        (Instruction.maxLength - i.encode.length)) := by
  have hle : i.encode.length ≤ Instruction.maxLength :=
    (Instruction.length_encode_le i).trans (by decide)
  have hmax : Instruction.maxLength =
      i.encode.length + (Instruction.maxLength - i.encode.length) := by omega
  conv_lhs => rw [hmax, Store.read_add, h.read_next.1, Instruction.decode?_encode]

/-- Behind an instruction that leaves the code as it was, the others come next. -/
theorem tail (h : Upcoming code m (i :: is))
    (hip : m'.ip = m.ip + BitVec.ofNat 64 i.encode.length)
    (hcode : ∀ a, code.Contains a → m'.memory a = m.memory a) : Upcoming code m' is := by
  obtain ⟨offset, hp, hsize⟩ := h.place
  rw [Instruction.encodeAll_cons, List.length_append] at hsize
  refine ⟨⟨offset + i.encode.length, ?_, by omega⟩, ?_⟩
  · rw [hip, hp, BitVec.ofNat_add, BitVec.add_assoc]
  · rw [← h.read_next.2, hip, Store.length_read]
    refine Store.read_congr fun k hk => hcode _ ?_
    have := h.contains (k := i.encode.length + k) (by simp; omega)
    rwa [BitVec.ofNat_add, ← BitVec.add_assoc] at this

end Upcoming

/-! ### Steps -/

section Steps

variable {code : Span} {routines : Routines} {m : Machine} {calls : List Call} {i : Instruction}
  {is : List Instruction}

/-- A step carries out the next instruction. -/
theorem step_upcoming (h : Upcoming code m (i :: is)) :
    (Execution.mk m calls false).step code routines =
      match i with
      | .call _ =>
        some ⟨routines calls.length (m.next i),
          calls ++ [⟨m.next i, routines calls.length (m.next i)⟩], false⟩
      | .ret => some ⟨m.next i, calls, true⟩
      | _ => some ⟨m.next i, calls, false⟩ := by
  have hle : i.encode.length ≤ Instruction.maxLength :=
    (Instruction.length_encode_le i).trans (by decide)
  have hlen : Instruction.maxLength - (Instruction.maxLength - i.encode.length) =
      i.encode.length := by omega
  have hin := h.inside
  simp only [Execution.step, Bool.false_eq_true, if_false, h.decode?, Store.length_read, hlen,
    if_neg (Nat.not_lt.2 hin), Machine.next]
  cases i <;> rfl

theorem step_plain (h : Upcoming code m (i :: is)) (hi : i.isPlain = true) :
    (Execution.mk m calls false).step code routines = some ⟨m.next i, calls, false⟩ := by
  rw [step_upcoming h]
  cases i with
  | call target => cases hi
  | ret => cases hi
  | _ => rfl

theorem step_call {target : Gpr} (h : Upcoming code m (.call target :: is)) :
    (Execution.mk m calls false).step code routines =
      some ⟨routines calls.length (m.next (.call target)),
        calls ++ [⟨m.next (.call target), routines calls.length (m.next (.call target))⟩], false⟩ :=
  step_upcoming h

theorem step_ret (h : Upcoming code m (.ret :: is)) :
    (Execution.mk m calls false).step code routines = some ⟨m.next .ret, calls, true⟩ :=
  step_upcoming h

theorem next_ip (m : Machine) (hi : i.isPlain = true) :
    (m.next i).ip = m.ip + BitVec.ofNat 64 i.encode.length :=
  Machine.execute_ip hi _ _

end Steps

/-! ### Runs -/

/-- Some number of steps leads from one execution to the other. -/
def Reaches (code : Span) (routines : Routines) (e e' : Execution) : Prop :=
  ∃ n, e.run code routines n = some e'

namespace Reaches

variable {code : Span} {routines : Routines} {e e' e'' : Execution}

theorem refl (e : Execution) : Reaches code routines e e := ⟨0, rfl⟩

theorem head (h : e.step code routines = some e') (h' : Reaches code routines e' e'') :
    Reaches code routines e e'' := by
  obtain ⟨n, hn⟩ := h'
  exact ⟨n + 1, by rw [Execution.run, h, Option.bind_some, hn]⟩

theorem single (h : e.step code routines = some e') : Reaches code routines e e' :=
  head h (refl e')

theorem trans (h : Reaches code routines e e') (h' : Reaches code routines e' e'') :
    Reaches code routines e e'' := by
  obtain ⟨n, hn⟩ := h
  induction n generalizing e with
  | zero => cases hn; exact h'
  | succ n ih =>
    obtain ⟨e₁, h₁, hr⟩ := Option.bind_eq_some_iff.1 hn
    exact head h₁ (ih hr)

end Reaches

/-- Nothing follows a return. -/
theorem step_returned {code : Span} {routines : Routines} {e : Execution} (h : e.returned = true) :
    e.step code routines = none := by
  rw [Execution.step, if_pos h]

theorem Returns.reaches {code : Span} {routines : Routines} {m : Machine} {e : Execution}
    (h : Returns code routines m e) : Reaches code routines (.start m) e ∧ e.returned = true := by
  obtain ⟨n, last, hn, -, hstep, hreturned⟩ := h
  exact ⟨Reaches.trans ⟨n, hn⟩ (Reaches.single hstep), hreturned⟩

/-- Code comes back in one way only. -/
theorem Returns.unique {code : Span} {routines : Routines} {m : Machine} {a b : Execution}
    (ha : Returns code routines m a) (hb : Returns code routines m b) : a = b := by
  obtain ⟨⟨n, hn⟩, hra⟩ := ha.reaches
  obtain ⟨⟨k, hk⟩, hrb⟩ := hb.reaches
  generalize Execution.start m = e at hn hk
  induction n generalizing e k with
  | zero =>
    cases hn
    cases k with
    | zero => cases hk; rfl
    | succ k => rw [Execution.run, step_returned hra] at hk; cases hk
  | succ n ih =>
    cases k with
    | zero => cases hk; rw [Execution.run, step_returned hrb] at hn; cases hn
    | succ k =>
      obtain ⟨e₁, h₁, hn⟩ := Option.bind_eq_some_iff.1 hn
      obtain ⟨e₂, h₂, hk⟩ := Option.bind_eq_some_iff.1 hk
      rw [h₁] at h₂
      cases h₂
      exact ih k e₁ hn hk

/-- A row of instructions that neither jump nor write to memory is carried out one by one. -/
theorem reaches_block {code : Span} (routines : Routines) (calls : List Call)
    {block is : List Instruction} {m : Machine} (hplain : ∀ i ∈ block, i.isPlain = true)
    (hmem : ∀ i ∈ block, ∀ m : Machine, (m.next i).memory = m.memory)
    (h : Upcoming code m (block ++ is)) :
    Reaches code routines ⟨m, calls, false⟩ ⟨block.foldl Machine.next m, calls, false⟩ ∧
      Upcoming code (block.foldl Machine.next m) is := by
  induction block generalizing m with
  | nil => exact ⟨Reaches.refl _, h⟩
  | cons i block ih =>
    have hi := hplain i List.mem_cons_self
    have htail : Upcoming code (m.next i) (block ++ is) :=
      h.tail (next_ip m hi) fun a _ => by rw [hmem i List.mem_cons_self]
    obtain ⟨hr, hu⟩ := ih (fun j hj => hplain j (List.mem_cons_of_mem _ hj))
      (fun j hj => hmem j (List.mem_cons_of_mem _ hj)) htail
    exact ⟨Reaches.head (step_plain h hi) hr, hu⟩

end Trampoline
