import Trampoline.Proofs.Execution

/-!
# Frames on the stack

A routine that has taken some stack may write to it and call others without harm to its caller.

* `Within`: the machine inside a routine, with so much of the stack taken;
* `Within.of_rsp`, `Within.of_registers`, `Within.write`: stack given or taken, registers that are the
  routine's own, and writes to its frame;
* `CallFrom`, `reaches_call`: a call, and what the caller finds after it.
-/

namespace Trampoline

/-- The machine inside a routine that was entered as `m₀` and has taken `depth` bytes of the stack. -/
structure Within (code : Span) (stack : Stack) (m₀ : Machine) (depth : Nat) (m : Machine) : Prop where
  rsp : m.rsp = m₀.rsp - BitVec.ofNat 64 depth
  saved : ∀ r ∈ SysV.calleeSaved, m.gpr r = m₀.gpr r
  code : ∀ a, code.Contains a → m.memory a = m₀.memory a
  stack : ∀ a, stack.Contains a → m₀.rsp.toNat ≤ a.toNat → m.memory a = m₀.memory a

/-! ### Addresses near the stack pointer -/

theorem toNat_sub_depth {a : Address} {depth : Nat} (h : depth ≤ a.toNat) :
    (a - BitVec.ofNat 64 depth).toNat = a.toNat - depth := by
  have := a.isLt
  rw [BitVec.toNat_sub, BitVec.toNat_ofNat, Nat.mod_eq_of_lt (by omega : depth < 2 ^ 64)]
  omega

theorem toNat_add_small {a : Address} {k : Nat} (h : a.toNat + k < 2 ^ 64) :
    (a + BitVec.ofNat 64 k).toNat = a.toNat + k := by
  rw [BitVec.toNat_add, BitVec.toNat_ofNat, Nat.mod_eq_of_lt (by omega : k < 2 ^ 64),
    Nat.mod_eq_of_lt h]

/-- A place near the start of a stretch lies above its start. -/
theorem le_toNat_of_distance_lt {a x : Address} {n : Nat} (hn : a.toNat + n ≤ 2 ^ 64)
    (h : (x - a).toNat < n) : a.toNat ≤ x.toNat ∧ x.toNat < a.toNat + n := by
  have := a.isLt
  have := x.isLt
  rw [BitVec.toNat_sub] at h
  omega

/-- The room that a routine may take, and its return address, are stack. -/
theorem Enters.stack_contains {bytes : Bytes} {code : Span} {stack : Stack} {m₀ : Machine}
    (he : Enters bytes code stack m₀) {a : Address} (hlow : m₀.rsp.toNat ≤ a.toNat + 32)
    (hhigh : a.toNat < m₀.rsp.toNat + 8) : stack.Contains a := by
  have hroom := he.room
  have htop := he.top
  exact ⟨by omega, by omega⟩

namespace Within

variable {bytes : Bytes} {code : Span} {stack : Stack} {m₀ m m' : Machine} {depth : Nat}

theorem refl (code : Span) (stack : Stack) (m₀ : Machine) : Within code stack m₀ 0 m₀ :=
  ⟨by simp, fun _ _ => rfl, fun _ _ => rfl, fun _ _ _ => rfl⟩

/-- A step that gives or takes stack and writes to registers of the routine's own. -/
theorem of_rsp {depth' : Nat} (h : Within code stack m₀ depth m)
    (hrsp : m'.rsp = m₀.rsp - BitVec.ofNat 64 depth')
    (hsaved : ∀ r ∈ SysV.calleeSaved, m'.gpr r = m.gpr r) (hmem : m'.memory = m.memory) :
    Within code stack m₀ depth' m' where
  rsp := hrsp
  saved r hr := (hsaved r hr).trans (h.saved r hr)
  code a ha := by rw [hmem]; exact h.code a ha
  stack a ha hle := by rw [hmem]; exact h.stack a ha hle

/-- What a routine does to registers of its own. -/
theorem of_registers (h : Within code stack m₀ depth m) (hrsp : m'.rsp = m.rsp)
    (hsaved : ∀ r ∈ SysV.calleeSaved, m'.gpr r = m.gpr r) (hmem : m'.memory = m.memory) :
    Within code stack m₀ depth m' :=
  h.of_rsp (hrsp.trans h.rsp) hsaved hmem

theorem toNat_rsp (h : Within code stack m₀ depth m) (hd : depth ≤ m₀.rsp.toNat) :
    m.rsp.toNat = m₀.rsp.toNat - depth := by
  rw [h.rsp, toNat_sub_depth hd]

/-- What a routine writes to the stack it has taken. -/
theorem write (h : Within code stack m₀ depth m) (he : Enters bytes code stack m₀) {b : Address}
    {bs : Bytes} (hlow : m₀.rsp.toNat ≤ b.toNat + 32) (hhigh : b.toNat + bs.length ≤ m₀.rsp.toNat)
    (hrsp : m'.rsp = m.rsp) (hgpr : ∀ r ∈ SysV.calleeSaved, m'.gpr r = m.gpr r)
    (hmem : m'.memory = m.memory.write b bs) : Within code stack m₀ depth m' := by
  have hlt := m₀.rsp.isLt
  have houtside : ∀ a, code.Contains a ∨ m₀.rsp.toNat ≤ a.toNat →
      m.memory.write b bs a = m.memory a := by
    intro a ha
    refine Store.write_of_le (Nat.le_of_not_lt fun hin => ?_)
    obtain ⟨h1, h2⟩ := le_toNat_of_distance_lt (by omega) hin
    rcases ha with hc | hle
    · exact he.apart a (he.stack_contains (by omega) (by omega)) hc
    · omega
  refine ⟨hrsp.trans h.rsp, fun r hr => (hgpr r hr).trans (h.saved r hr), ?_, ?_⟩
  · intro a ha
    rw [hmem, houtside a (.inl ha), h.code a ha]
  · intro a ha hle
    rw [hmem, houtside a (.inr hle), h.stack a ha hle]

end Within

/-! ### Calls -/

/-- A call that was made from the machine `m` to the address in the scratch register, with `k` calls
before it, and what the caller finds after it. -/
structure CallFrom (code : Span) (stack : Stack) (routines : Routines) (k : Nat) (m : Machine)
    (c : Call) : Prop where
  target : c.entered.ip = m.gpr SysV.callScratch
  routine : c.left = routines k c.entered
  entered_rsp : c.entered.rsp = m.rsp - 8
  entered_gpr : ∀ r, r ≠ .rsp → c.entered.gpr r = m.gpr r
  entered_xmm : c.entered.xmm = m.xmm
  ip : c.left.ip = m.ip + BitVec.ofNat 64 (Instruction.call SysV.callScratch).encode.length
  rsp : c.left.rsp = m.rsp
  saved : ∀ r ∈ SysV.calleeSaved, c.left.gpr r = m.gpr r
  code : ∀ a, code.Contains a → c.left.memory a = m.memory a
  stack : ∀ a, stack.Contains a → m.rsp.toNat ≤ a.toNat → c.left.memory a = m.memory a

section Calls

variable {bytes : Bytes} {code : Span} {stack : Stack} {routines : Routines} {m₀ m : Machine}
  {depth k : Nat} {c : Call} {is : List Instruction}

/-- What the convention promises of the routine, seen from its caller. -/
theorem Within.callFrom (h : Within code stack m₀ depth m) (he : Enters bytes code stack m₀)
    (hc : SysV.Conform code stack routines) (hd : depth + 8 ≤ 32)
    (hentered : c.entered = m.next (.call SysV.callScratch)) (hleft : c.left = routines k c.entered) :
    CallFrom code stack routines k m c := by
  have hroom := he.room
  have hlt := m₀.rsp.isLt
  have hr : m.rsp.toNat = m₀.rsp.toNat - depth := h.toNat_rsp (by omega)
  have htop : (m.rsp - 8).toNat = m.rsp.toNat - 8 := toNat_sub_depth (by omega : 8 ≤ m.rsp.toNat)
  have hkept : SysV.Kept code stack c.entered c.left := hleft ▸ hc k c.entered
  have hrsp : c.entered.rsp = m.rsp - 8 := by rw [hentered]; rfl
  have hgpr : ∀ r, r ≠ .rsp → c.entered.gpr r = m.gpr r := by
    intro r hr
    rw [hentered]
    exact Machine.gpr_setGpr_of_ne _ _ hr
  -- The return address lies below the frame, so in the stack and apart from the code.
  have hmem : c.entered.memory = m.memory.writeWord (m.rsp - 8)
      (m.ip + BitVec.ofNat 64 (Instruction.call SysV.callScratch).encode.length) := by
    rw [hentered]; rfl
  have houtside : ∀ a, code.Contains a ∨ m.rsp.toNat ≤ a.toNat →
      c.entered.memory a = m.memory a := by
    intro a ha
    rw [hmem]
    refine Store.writeWord_of_le (Nat.le_of_not_lt fun hin => ?_)
    obtain ⟨h1, h2⟩ := le_toNat_of_distance_lt (by omega) hin
    rcases ha with hc | hle
    · exact he.apart a (he.stack_contains (by omega) (by omega)) hc
    · omega
  refine ⟨?_, hleft, hrsp, hgpr, ?_, ?_, ?_, fun r hr => ?_, fun a ha => ?_, fun a ha hle => ?_⟩
  · rw [hentered]; rfl
  · rw [hentered]; rfl
  · rw [hkept.ip, hrsp, hmem, Store.word_writeWord]
  · rw [hkept.rsp, hrsp, BitVec.sub_add_cancel]
  · rw [hkept.saved r hr, hgpr r (ne_of_mem_of_not_mem hr (by decide))]
  · rw [hkept.code a ha, houtside a (.inl ha)]
  · rw [hkept.stack a ha (by rw [hrsp, htop]; omega), houtside a (.inr hle)]

/-- A call leaves the frame of the caller as it was. -/
theorem Within.of_callFrom (h : Within code stack m₀ depth m) (hd : depth ≤ m₀.rsp.toNat)
    (hcall : CallFrom code stack routines k m c) : Within code stack m₀ depth c.left where
  rsp := hcall.rsp.trans h.rsp
  saved r hr := (hcall.saved r hr).trans (h.saved r hr)
  code a ha := (hcall.code a ha).trans (h.code a ha)
  stack a ha hle := by
    have hr := h.toNat_rsp hd
    exact (hcall.stack a ha (by omega)).trans (h.stack a ha hle)

/-- Loading an address into the scratch register and calling it. -/
theorem reaches_call (calls : List Call) {target : Address} (h : Within code stack m₀ depth m)
    (he : Enters bytes code stack m₀) (hc : SysV.Conform code stack routines) (hd : depth + 8 ≤ 32)
    (hu : Upcoming code m (.moveImm SysV.callScratch target :: .call SysV.callScratch :: is)) :
    ∃ c, CallFrom code stack routines calls.length (m.next (.moveImm SysV.callScratch target)) c ∧
      Reaches code routines ⟨m, calls, false⟩ ⟨c.left, calls ++ [c], false⟩ ∧
      Within code stack m₀ depth c.left ∧ Upcoming code c.left is := by
  let m₁ := m.next (.moveImm SysV.callScratch target)
  have hgpr : ∀ r, r ≠ SysV.callScratch → m₁.gpr r = m.gpr r :=
    fun r hr => Machine.gpr_setGpr_of_ne _ _ hr
  have hw : Within code stack m₀ depth m₁ :=
    h.of_registers (hgpr .rsp (by decide))
      (fun r hr => hgpr r (ne_of_mem_of_not_mem hr (by decide))) rfl
  have hu₁ : Upcoming code m₁ (.call SysV.callScratch :: is) :=
    hu.tail (next_ip m rfl) fun _ _ => rfl
  let c : Call := ⟨m₁.next (.call SysV.callScratch),
    routines calls.length (m₁.next (.call SysV.callScratch))⟩
  have hcall : CallFrom code stack routines calls.length m₁ c := hw.callFrom he hc hd rfl rfl
  have hroom := he.room
  exact ⟨c, hcall, Reaches.head (step_plain hu rfl) (Reaches.single (step_call hu₁)),
    hw.of_callFrom (by omega) hcall, hu₁.tail hcall.ip hcall.code⟩

end Calls

end Trampoline
