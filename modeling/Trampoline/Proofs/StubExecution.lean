import Trampoline.Machine.Result
import Trampoline.Proofs.Arguments
import Trampoline.Proofs.Frame
import Trampoline.Proofs.Linking
import Trampoline.Width.Lemmas

/-!
# Running a stub

What a linked stub does from its first byte to its return, whatever the routines do that it calls.

* `Item.instructions`, `linked_eq_encodeAll`: the instructions that linked code consists of;
* `reaches_saveError`, `reaches_extend`: the parts of a stub behind the native call;
* `StubRun`, `stubRun_program`: the whole run.
-/

namespace Trampoline

/-! ### The instructions of a stub -/

/-- The instructions of an item with its address in place. -/
def Item.instructions : Item → List Instruction
  | instruction i => [i]
  | loadAddress dst target => [.moveImm dst target]
  | raw _ => []

/-- The instructions of a sequence of items. -/
def instructionsOf (items : List Item) : List Instruction := items.flatMap Item.instructions

theorem instructionsOf_append (items items' : List Item) :
    instructionsOf (items ++ items') = instructionsOf items ++ instructionsOf items' :=
  List.flatMap_append

/-- Without raw bytes, linked code is the encoding of its instructions. -/
theorem linked_eq_encodeAll {items : List Item} (h : ∀ bs, Item.raw bs ∉ items) :
    items.flatMap Item.linked = Instruction.encodeAll (instructionsOf items) := by
  induction items with
  | nil => rfl
  | cons i items ih =>
    have ih := ih fun bs hb => h bs (List.mem_cons_of_mem _ hb)
    rw [List.flatMap_cons, ih]
    cases i with
    | instruction i => rfl
    | loadAddress dst target => rfl
    | raw bs => exact absurd List.mem_cons_self (h bs)

namespace Stub

/-- The part of a stub that has the error code saved, if that is asked for. -/
def saving (ret : Return) : Option Address → List Item
  | some saver => saveError ret saver
  | none => []

/-- The end of a stub: the frame is given back. -/
def leaving (ret : Return) : List Instruction := [.arith .add .rsp (frame ret), .ret]

theorem program_eq (n : Nat) (ret : Return) (target : Address) (saver : Option Address) :
    program n ret target saver =
      moveArguments n ++ [.instruction (.arith .sub .rsp (frame ret))] ++ callRoutine target ++
        saving ret saver ++ extend ret ++
        [.instruction (.arith .add .rsp (frame ret)), .instruction .ret] := by
  cases saver <;> rfl

theorem raw_not_mem_moveArguments (n : Nat) (bs : Bytes) : Item.raw bs ∉ moveArguments n := by
  intro h
  obtain ⟨a, -, ha⟩ := List.mem_map.1 h
  cases ha

theorem raw_not_mem_program (n : Nat) (ret : Return) (target : Address) (saver : Option Address)
    (bs : Bytes) : Item.raw bs ∉ program n ret target saver := by
  have hsaving : Item.raw bs ∉ saving ret saver := by
    cases saver <;> rcases ret with _ | w | _ | _ <;>
      simp [saving, saveError, spill, reload, callRoutine]
  have hextend : Item.raw bs ∉ extend ret := by
    unfold extend
    split <;> simp
  simp [program_eq, raw_not_mem_moveArguments, hsaving, hextend, callRoutine]

theorem instructionsOf_moveArguments (n : Nat) :
    instructionsOf (moveArguments n) = (argumentTable.take n).map moveOf := by
  simp only [instructionsOf, moveArguments, List.flatMap_map]
  exact List.map_eq_flatMap.symm

theorem instructionsOf_program (n : Nat) (ret : Return) (target : Address) (saver : Option Address) :
    instructionsOf (program n ret target saver) =
      (argumentTable.take n).map moveOf ++ .arith .sub .rsp (frame ret) ::
        .moveImm SysV.callScratch target :: .call SysV.callScratch ::
          (instructionsOf (saving ret saver) ++ (instructionsOf (extend ret) ++ leaving ret)) := by
  simp only [program_eq, instructionsOf_append, instructionsOf_moveArguments, List.append_assoc]
  rfl

/-! ### The top of the stack -/

theorem memory_next_store (m : Machine) (src : Gpr) :
    (m.next (.store (Mem.at .rsp) src)).memory =
      m.memory.write m.rsp (Bytes.ofNat 8 (m.gpr src).toNat) :=
  congrArg (fun a => m.memory.write a (Bytes.ofNat 8 (m.gpr src).toNat)) (m.address_at .rsp)

theorem memory_next_storeFloat (m : Machine) (p : Precision) (src : Xmm) :
    (m.next (.storeFloat p (Mem.at .rsp) src)).memory =
      m.memory.write m.rsp (Bytes.ofNat p.bytes (m.xmm src).toNat) :=
  congrArg (fun a => m.memory.write a (Bytes.ofNat p.bytes (m.xmm src).toNat)) (m.address_at .rsp)

theorem gpr_next_load (m : Machine) (dst : Gpr) :
    (m.next (.load dst (Mem.at .rsp))).gpr dst = m.memory.number m.rsp 8 :=
  (Machine.gpr_setGpr_self _ _ _).trans (congrArg m.memory.word (m.address_at .rsp))

theorem xmm_next_loadFloat (m : Machine) (p : Precision) (dst : Xmm) :
    (m.next (.loadFloat p dst (Mem.at .rsp))).xmm dst =
      (m.memory.number m.rsp p.bytes).setWidth 128 :=
  (Machine.xmm_setXmm_self _ _ _).trans
    (congrArg (fun a => (m.memory.number a p.bytes).setWidth 128) (m.address_at .rsp))

/-- A floating-point number goes through memory unchanged; the rest of its register does not. -/
theorem setWidth_number (p : Precision) (x : BitVec 128) :
    ((BitVec.ofNat 64 (x.toNat % 256 ^ p.bytes)).setWidth 128).setWidth (8 * p.bytes) =
      x.setWidth (8 * p.bytes) := by
  apply BitVec.eq_of_toNat_eq
  cases p <;> simp only [Precision.bytes, BitVec.toNat_setWidth, BitVec.toNat_ofNat] <;> omega

/-! ### Saving the error code -/

section Parts

variable {bytes : Bytes} {code : Span} {stack : Stack} {routines : Routines} {m₀ m : Machine}
  {depth : Nat} (calls : List Call) {is : List Instruction}

/-- A call between an instruction that puts a number on top of the frame and one that takes it back: it
is still there. -/
theorem reaches_call_over {spill : Instruction} {saver : Address} {n v : Nat} (hn : n ≤ 8)
    (h : Within code stack m₀ depth m) (he : Enters bytes code stack m₀)
    (hc : SysV.Conform code stack routines) (hd : 8 ≤ depth) (hd' : depth + 8 ≤ 32)
    (hplain : spill.isPlain = true) (hgpr : (m.next spill).gpr = m.gpr)
    (hmem : (m.next spill).memory = m.memory.write m.rsp (Bytes.ofNat n v))
    (hu : Upcoming code m
      (spill :: .moveImm SysV.callScratch saver :: .call SysV.callScratch :: is)) :
    ∃ c : Call, c.entered.ip = saver ∧ c.entered.rsp = m.rsp - 8 ∧
      Reaches code routines ⟨m, calls, false⟩ ⟨c.left, calls ++ [c], false⟩ ∧
      Within code stack m₀ depth c.left ∧ Upcoming code c.left is ∧
      c.left.memory.number c.left.rsp n = BitVec.ofNat 64 (v % 256 ^ n) := by
  have hroom := he.room
  have hlt := m₀.rsp.isLt
  have hr : m.rsp.toNat = m₀.rsp.toNat - depth := h.toNat_rsp (by omega)
  have hrsp : (m.next spill).rsp = m.rsp := congrFun hgpr .rsp
  have hlen := Bytes.length_ofNat n v
  have hw : Within code stack m₀ depth (m.next spill) :=
    h.write he (by omega) (by omega) hrsp (fun r _ => congrFun hgpr r) hmem
  have hu₁ := hu.tail (next_ip m hplain) fun a ha => (hw.code a ha).trans (h.code a ha).symm
  obtain ⟨c, hcall, hreach, hwc, huc⟩ := reaches_call calls hw he hc hd' hu₁
  have hback : c.left.rsp = m.rsp := hcall.rsp.trans hrsp
  refine ⟨c, hcall.target, ?_, Reaches.head (step_plain hu hplain) hreach, hwc, huc, ?_⟩
  · exact hcall.entered_rsp.trans (congrArg (· - 8) hrsp)
  · rw [hback, ← Store.number_write m.memory m.rsp hn v, ← hmem]
    refine Store.number_congr fun k hk => ?_
    -- The place is in the frame, which the convention protects from the routine.
    have hk' : (m.rsp + BitVec.ofNat 64 k).toNat = m.rsp.toNat + k := toNat_add_small (by omega)
    have hle : ((m.next spill).next (.moveImm SysV.callScratch saver)).rsp.toNat = m.rsp.toNat :=
      congrArg BitVec.toNat hrsp
    exact hcall.stack _ (he.stack_contains (by omega) (by omega)) (by omega)

/-- A floating-point result on top of the frame during a call. -/
theorem reaches_call_over_float (p : Precision) {saver : Address} (h : Within code stack m₀ depth m)
    (he : Enters bytes code stack m₀) (hc : SysV.Conform code stack routines) (hd : 8 ≤ depth)
    (hd' : depth + 8 ≤ 32)
    (hu : Upcoming code m (.storeFloat p (Mem.at .rsp) SysV.floatResult ::
      .moveImm SysV.callScratch saver :: .call SysV.callScratch ::
        .loadFloat p SysV.floatResult (Mem.at .rsp) :: is)) :
    ∃ (c : Call) (m' : Machine), c.entered.ip = saver ∧ c.entered.rsp = m.rsp - 8 ∧
      Reaches code routines ⟨m, calls, false⟩ ⟨m', calls ++ [c], false⟩ ∧
      Within code stack m₀ depth m' ∧ Upcoming code m' is ∧
      (m'.xmm SysV.floatResult).setWidth (8 * p.bytes) =
        (m.xmm SysV.floatResult).setWidth (8 * p.bytes) := by
  have hn : p.bytes ≤ 8 := by cases p <;> decide
  obtain ⟨c, hip, hrsp, hreach, hw, huc, hslot⟩ := reaches_call_over calls hn h he hc hd
    hd' rfl rfl (memory_next_storeFloat m p SysV.floatResult) hu
  refine ⟨c, c.left.next (.loadFloat p SysV.floatResult (Mem.at .rsp)), hip, hrsp,
    hreach.trans (Reaches.single (step_plain huc rfl)), hw.of_registers rfl (fun _ _ => rfl) rfl,
    huc.tail (next_ip _ rfl) fun _ _ => rfl, ?_⟩
  rw [xmm_next_loadFloat, hslot, setWidth_number]

/-- An integer result on top of the frame during a call. -/
theorem reaches_call_over_integer {saver : Address} (h : Within code stack m₀ depth m)
    (he : Enters bytes code stack m₀) (hc : SysV.Conform code stack routines) (hd : 8 ≤ depth)
    (hd' : depth + 8 ≤ 32)
    (hu : Upcoming code m (.store (Mem.at .rsp) SysV.integerResult ::
      .moveImm SysV.callScratch saver :: .call SysV.callScratch ::
        .load SysV.integerResult (Mem.at .rsp) :: is)) :
    ∃ (c : Call) (m' : Machine), c.entered.ip = saver ∧ c.entered.rsp = m.rsp - 8 ∧
      Reaches code routines ⟨m, calls, false⟩ ⟨m', calls ++ [c], false⟩ ∧
      Within code stack m₀ depth m' ∧ Upcoming code m' is ∧
      m'.gpr SysV.integerResult = m.gpr SysV.integerResult := by
  have hlt : (m.gpr SysV.integerResult).toNat < 256 ^ 8 := (m.gpr SysV.integerResult).isLt
  obtain ⟨c, hip, hrsp, hreach, hw, huc, hslot⟩ := reaches_call_over calls (by omega) h he
    hc hd hd' rfl rfl (memory_next_store m SysV.integerResult) hu
  refine ⟨c, c.left.next (.load SysV.integerResult (Mem.at .rsp)), hip, hrsp,
    hreach.trans (Reaches.single (step_plain huc rfl)),
    hw.of_registers rfl (fun r hr => ?_) rfl, huc.tail (next_ip _ rfl) fun _ _ => rfl, ?_⟩
  · exact Machine.gpr_setGpr_of_ne _ _ (ne_of_mem_of_not_mem hr (by decide))
  · rw [gpr_next_load, hslot, Nat.mod_eq_of_lt hlt, BitVec.ofNat_toNat, BitVec.setWidth_eq]

/-- Having the error code saved is one more call, and the result comes through it. -/
theorem reaches_saveError (ret : Return) {saver : Address} (h : Within code stack m₀ depth m)
    (he : Enters bytes code stack m₀) (hc : SysV.Conform code stack routines) (hd : 8 ≤ depth)
    (hd' : depth + 8 ≤ 32) (hu : Upcoming code m (instructionsOf (saveError ret saver) ++ is)) :
    ∃ (c : Call) (m' : Machine), c.entered.ip = saver ∧ c.entered.rsp = m.rsp - 8 ∧
      Reaches code routines ⟨m, calls, false⟩ ⟨m', calls ++ [c], false⟩ ∧
      Within code stack m₀ depth m' ∧ Upcoming code m' is ∧ ret.Same m m' := by
  rcases ret with _ | w | _ | _
  case nothing =>
    obtain ⟨c, hcall, hreach, hw, huc⟩ := reaches_call calls h he hc hd' hu
    exact ⟨c, c.left, hcall.target, hcall.entered_rsp, hreach, hw, huc, trivial⟩
  case value.int => exact reaches_call_over_integer calls h he hc hd hd' hu
  case value.f32 => exact reaches_call_over_float calls .single h he hc hd hd' hu
  case value.f64 => exact reaches_call_over_float calls .double h he hc hd hd' hu

/-- Saving the error code or not, the result stands where it stood. -/
theorem reaches_saving (ret : Return) (saver : Option Address) (h : Within code stack m₀ depth m)
    (he : Enters bytes code stack m₀) (hc : SysV.Conform code stack routines) (hd : 8 ≤ depth)
    (hd' : depth + 8 ≤ 32) (hu : Upcoming code m (instructionsOf (saving ret saver) ++ is)) :
    ∃ (others : List Call) (m' : Machine), others.map (·.entered.ip) = saver.toList ∧
      (∀ c ∈ others, c.entered.rsp = m.rsp - 8) ∧
      Reaches code routines ⟨m, calls, false⟩ ⟨m', calls ++ others, false⟩ ∧
      Within code stack m₀ depth m' ∧ Upcoming code m' is ∧ ret.Same m m' := by
  cases saver with
  | none =>
    have hstay : Reaches code routines ⟨m, calls, false⟩ ⟨m, calls ++ [], false⟩ := by
      rw [List.append_nil]
      exact Reaches.refl _
    exact ⟨[], m, rfl, by simp, hstay, h, hu, .refl ret m⟩
  | some saver =>
    obtain ⟨c, m', hip, hrsp, hreach, hw, hum, hsame⟩ := reaches_saveError calls ret h he
      hc hd hd' hu
    exact ⟨[c], m', by simp [hip], by simp [hrsp], hreach, hw, hum, hsame⟩

/-! ### Extending the result -/

theorem byteOf_rax (m : Machine) (hasRex : Bool) :
    m.byteOf hasRex SysV.integerResult = (m.gpr SysV.integerResult).setWidth 8 :=
  if_neg (by simp [SysV.integerResult, Gpr.number])

/-- A number that was extended to the low half of a register, in a register. -/
theorem setWidth_setWidth_signExtend {k : Nat} (x : BitVec k) :
    ((x.signExtend 32).setWidth 64).setWidth 32 = (x.signExtend 64).setWidth 32 := by
  rw [BitVec.setWidth_setWidth_of_le _ (by omega), BitVec.setWidth_eq,
    Width.setWidth_signExtend x (by omega)]

variable (routines) in
/-- What the extension of a result leaves is what the caller should read. -/
theorem reaches_extend (ret : Return) (h : Within code stack m₀ depth m)
    (hu : Upcoming code m (instructionsOf (extend ret) ++ is)) :
    ∃ m', Reaches code routines ⟨m, calls, false⟩ ⟨m', calls, false⟩ ∧
      Within code stack m₀ depth m' ∧ Upcoming code m' is ∧ ret.read m' = ret.extended m := by
  -- A short integer takes one instruction more, which writes to the register of the result alone.
  have hshort : ∀ size : ShortWidth,
      Upcoming code m (.moveSigned size SysV.integerResult SysV.integerResult :: is) →
      ∃ m', Reaches code routines ⟨m, calls, false⟩ ⟨m', calls, false⟩ ∧
        Within code stack m₀ depth m' ∧ Upcoming code m' is ∧
        m'.gpr SysV.integerResult = m.signedSource
          (Instruction.moveSigned size SysV.integerResult SysV.integerResult).hasRex size
          SysV.integerResult := by
    intro size hu
    refine ⟨m.next (.moveSigned size SysV.integerResult SysV.integerResult),
      Reaches.single (step_plain hu rfl), h.of_registers rfl (fun r hr => ?_) rfl,
      hu.tail (next_ip _ rfl) fun _ _ => rfl, Machine.gpr_setGpr_self _ _ _⟩
    exact Machine.gpr_setGpr_of_ne _ _ (ne_of_mem_of_not_mem hr (by decide))
  rcases ret with _ | w | _ | _
  case value.int =>
    cases w with
    | w8 =>
      obtain ⟨m', hreach, hw, hu', hres⟩ := hshort .byte hu
      refine ⟨m', hreach, hw, hu', ?_⟩
      show ((m'.gpr SysV.integerResult).setWidth 32).setWidth 64 =
        ((Width.w8.signExtend (m.gpr SysV.integerResult)).setWidth 32).setWidth 64
      rw [hres, Machine.signedSource, byteOf_rax, setWidth_setWidth_signExtend]
      rfl
    | w16 =>
      obtain ⟨m', hreach, hw, hu', hres⟩ := hshort .word hu
      refine ⟨m', hreach, hw, hu', ?_⟩
      show ((m'.gpr SysV.integerResult).setWidth 32).setWidth 64 =
        ((Width.w16.signExtend (m.gpr SysV.integerResult)).setWidth 32).setWidth 64
      rw [hres, Machine.signedSource, setWidth_setWidth_signExtend]
      rfl
    | w32 => exact ⟨m, Reaches.refl _, h, hu, rfl⟩
    | w64 => exact ⟨m, Reaches.refl _, h, hu, rfl⟩
  all_goals exact ⟨m, Reaches.refl _, h, hu, rfl⟩

end Parts

/-! ### The whole run -/

/-- The bytes of the frame. -/
def depth (ret : Return) : Nat := if ret.isFloat then 24 else 8

theorem signExtend_frame (ret : Return) : (frame ret).signExtend 64 = BitVec.ofNat 64 (depth ret) := by
  unfold frame depth
  split <;> rfl

theorem depth_bounds (ret : Return) : 8 ≤ depth ret ∧ depth ret + 8 ≤ 32 := by
  unfold depth
  split <;> exact ⟨by decide, by decide⟩

/-- The frame keeps the stack pointer aligned at calls. -/
theorem depth_mod (ret : Return) : depth ret % 16 = 8 := by
  unfold depth
  split <;> rfl

section Run

variable {bytes : Bytes} {code : Span} {stack : Stack} {routines : Routines} {m₀ m : Machine}
  (calls : List Call) {is : List Instruction}

/-- Code that is just entered has all its instructions before it. -/
theorem upcoming_of_enters (he : Enters bytes code stack m)
    (hbytes : bytes = Instruction.encodeAll is) : Upcoming code m is := by
  subst hbytes
  refine ⟨⟨0, ?_, ?_⟩, ?_⟩
  · rw [he.ip, BitVec.add_zero]
  · rw [he.size, Nat.zero_add]
  · rw [he.ip, he.loaded]

theorem gpr_next_arith (op : Arith) (v : BitVec 32) (m : Machine) {r : Gpr} (hr : r ≠ .rsp) :
    (m.next (.arith op .rsp v)).gpr r = m.gpr r := by
  cases op <;> exact Machine.gpr_setGpr_of_ne _ _ hr

theorem memory_next_arith (op : Arith) (v : BitVec 32) (m : Machine) :
    (m.next (.arith op .rsp v)).memory = m.memory := by
  cases op <;> rfl

theorem gpr_next_ret (m : Machine) {r : Gpr} (hr : r ≠ .rsp) : (m.next .ret).gpr r = m.gpr r := by
  show (if r = .rsp then _ else m.gpr r) = m.gpr r
  exact if_neg hr

theorem xmm_next_ret (m : Machine) : (m.next .ret).xmm = m.xmm := by
  simp only [Machine.next, Machine.execute, Machine.xmm_setGpr]

variable (stack routines) in
/-- The moves of the arguments and the frame. -/
theorem reaches_arguments (n : Nat) (ret : Return)
    (hu : Upcoming code m₀
      ((argumentTable.take n).map moveOf ++ .arith .sub .rsp (frame ret) :: is)) :
    ∃ m, Reaches code routines ⟨m₀, calls, false⟩ ⟨m, calls, false⟩ ∧
      Within code stack m₀ (depth ret) m ∧ Upcoming code m is ∧
      (∀ r, r ≠ .rsp → m.gpr r = (moved (argumentTable.take n) m₀).gpr r) ∧ m.xmm = m₀.xmm := by
  let m₁ := moved (argumentTable.take n) m₀
  have hplain : ∀ i ∈ (argumentTable.take n).map moveOf, i.isPlain = true := by
    intro i hi
    obtain ⟨a, -, rfl⟩ := List.mem_map.1 hi
    exact moveOf_isPlain a
  have hmem : ∀ i ∈ (argumentTable.take n).map moveOf, ∀ m : Machine,
      (m.next i).memory = m.memory := by
    intro i hi m
    obtain ⟨a, -, rfl⟩ := List.mem_map.1 hi
    rw [next_moveOf]
    rfl
  obtain ⟨hreach, hu₁⟩ := reaches_block routines calls hplain hmem hu
  obtain ⟨-, hxmm, hmemory⟩ := moved_frame (argumentTable.take n) m₀
  have hkeep := gpr_moved_argumentTable n m₀
  have hw₁ : Within code stack m₀ 0 m₁ := (Within.refl code stack m₀).of_registers
    (hkeep .rsp List.mem_cons_self) (fun r hr => hkeep r (List.mem_cons_of_mem _ hr)) hmemory
  refine ⟨m₁.next (.arith .sub .rsp (frame ret)),
    hreach.trans (Reaches.single (step_plain hu₁ rfl)), hw₁.of_rsp ?_ (fun r hr => ?_) rfl,
    hu₁.tail (next_ip _ rfl) fun _ _ => rfl, fun r hr => gpr_next_arith .sub _ m₁ hr, hxmm⟩
  · calc (m₁.next (.arith .sub .rsp (frame ret))).rsp
        = m₁.rsp - (frame ret).signExtend 64 := Machine.gpr_setGpr_self _ _ _
      _ = m₀.rsp - BitVec.ofNat 64 (depth ret) := by
          rw [show m₁.rsp = m₀.rsp from hkeep .rsp List.mem_cons_self, signExtend_frame]
  · exact gpr_next_arith .sub _ m₁ (ne_of_mem_of_not_mem hr (by decide))

/-- A return with all of the stack given back keeps what the convention wants kept. -/
theorem kept_next_ret (h : Within code stack m₀ 0 m) (he : Enters bytes code stack m₀) :
    SysV.Kept code stack m₀ (m.next .ret) := by
  have hroom := he.room
  have htop := he.top
  have hhigh : stack.high ≤ wordLimit := stack.high_le
  rw [wordLimit] at hhigh
  have hrsp : m.rsp = m₀.rsp := h.rsp.trans (BitVec.sub_zero _)
  have hword : m.memory.word m.rsp = m₀.memory.word m₀.rsp := by
    rw [hrsp]
    refine Store.number_congr fun k hk => ?_
    have hk' : (m₀.rsp + BitVec.ofNat 64 k).toNat = m₀.rsp.toNat + k :=
      toNat_add_small (by omega)
    exact h.stack _ (he.stack_contains (by omega) (by omega)) (by omega)
  refine ⟨hword, congrArg (· + 8) hrsp, fun r hr => ?_, h.code, fun a ha hle => ?_⟩
  · rw [gpr_next_ret m (ne_of_mem_of_not_mem hr (by decide)), h.saved r hr]
  · exact h.stack a ha (by omega)

/-- The end of a stub gives back the frame and returns to the caller. -/
theorem returns_leaving (ret : Return) (hreach : Reaches code routines (.start m₀) ⟨m, calls, false⟩)
    (h : Within code stack m₀ (depth ret) m) (he : Enters bytes code stack m₀)
    (hu : Upcoming code m (leaving ret)) :
    ∃ e, Returns code routines m₀ e ∧ e.calls = calls ∧ SysV.Kept code stack m₀ e.machine ∧
      ret.read e.machine = ret.read m := by
  obtain ⟨m₁, hm₁⟩ : ∃ m₁, m₁ = m.next (.arith .add .rsp (frame ret)) := ⟨_, rfl⟩
  have hu₁ : Upcoming code m₁ [.ret] := by
    rw [hm₁]
    exact hu.tail (next_ip _ rfl) fun a _ => by rw [memory_next_arith]
  have hw₁ : Within code stack m₀ 0 m₁ := by
    refine h.of_rsp ?_ (fun r hr => ?_) (by rw [hm₁, memory_next_arith])
    · calc m₁.rsp = m.rsp + (frame ret).signExtend 64 := by
            rw [hm₁]; exact Machine.gpr_setGpr_self _ _ _
        _ = m₀.rsp - BitVec.ofNat 64 0 := by
            rw [h.rsp, signExtend_frame, BitVec.sub_add_cancel, BitVec.sub_zero]
    · rw [hm₁]
      exact gpr_next_arith .add _ m (ne_of_mem_of_not_mem hr (by decide))
  have hread : ret.read (m₁.next .ret) = ret.read m := by
    have hne : SysV.integerResult ≠ .rsp := by decide
    refine Return.read_congr ret ?_ ?_
    · rw [gpr_next_ret _ hne, hm₁, gpr_next_arith .add _ m hne]
    · rw [xmm_next_ret, hm₁]
      rfl
  obtain ⟨n, hn⟩ := hreach.trans (Reaches.single (step_plain hu rfl))
  rw [← hm₁] at hn
  obtain ⟨offset, hip, hsize⟩ := hu₁.place
  have hlast : offset = code.size - 1 := by
    have : (Instruction.encodeAll [.ret]).length = 1 := rfl
    omega
  exact ⟨⟨m₁.next .ret, calls, true⟩, ⟨n, _, hn, hip.trans (by rw [hlast]), step_ret hu₁, rfl⟩,
    rfl, kept_next_ret hw₁ he, hread⟩

/-- What a stub does, entered as `m`, with `native` the call of the native function and `others` the
calls behind it. -/
structure StubRun (code : Span) (stack : Stack) (routines : Routines) (n : Nat) (ret : Return)
    (target : Address) (saver : Option Address) (m : Machine) (e : Execution) (native : Call)
    (others : List Call) : Prop where
  returns : Returns code routines m e
  calls : e.calls = native :: others
  target : native.entered.ip = target
  routine : native.left = routines 0 native.entered
  arguments : ∀ i < n, SysV.integerArgument native.entered i = SysV.integerArgument m (i + 2)
  floats : native.entered.xmm = m.xmm
  saver : others.map (·.entered.ip) = saver.toList
  rsp : ∀ c ∈ native :: others, c.entered.rsp = m.rsp - BitVec.ofNat 64 (depth ret + 8)
  kept : SysV.Kept code stack m e.machine
  result : ret.read e.machine = ret.extended native.left

/-- **A stub that is entered calls the native function with its arguments, has the error code saved if
that is asked for, and returns the result**, whatever routines that follow the convention do. -/
theorem stubRun_program {n : Nat} (hn : n ≤ 6) {ret : Return} {target : Address}
    {saver : Option Address} (he : Enters bytes code stack m)
    (hbytes : bytes = Instruction.encodeAll (instructionsOf (program n ret target saver)))
    (hc : SysV.Conform code stack routines) :
    ∃ e native others, StubRun code stack routines n ret target saver m e native others := by
  obtain ⟨hd, hd'⟩ := depth_bounds ret
  have hu := upcoming_of_enters he hbytes
  rw [instructionsOf_program] at hu
  obtain ⟨m₁, hreach₁, hw₁, hu₁, hgpr₁, hxmm₁⟩ :=
    reaches_arguments stack routines [] n ret hu
  obtain ⟨native, hcall, hreach₂, hw₂, hu₂⟩ := reaches_call [] hw₁ he hc hd' hu₁
  obtain ⟨others, m₃, hsaver, hothers, hreach₃, hw₃, hu₃, hsame⟩ :=
    reaches_saving [native] ret saver hw₂ he hc hd hd' hu₂
  obtain ⟨m₄, hreach₄, hw₄, hu₄, hread⟩ :=
    reaches_extend routines (native :: others) ret hw₃ hu₃
  obtain ⟨e, hreturns, hcalls, hkept, hresult⟩ := returns_leaving _ ret
    (hreach₁.trans (hreach₂.trans (hreach₃.trans hreach₄))) hw₄ he hu₄
  have hscratch : ∀ r, r ≠ SysV.callScratch → native.entered.gpr r =
      if r = .rsp then m₁.rsp - 8 else m₁.gpr r := by
    intro r hr
    split
    case isTrue h => subst h; exact hcall.entered_rsp
    case isFalse h => exact (hcall.entered_gpr r h).trans (Machine.gpr_setGpr_of_ne _ _ hr)
  have hrsp : m₁.rsp - 8 = m.rsp - BitVec.ofNat 64 (depth ret + 8) := by
    rw [hw₁.rsp, BitVec.ofNat_add, BitVec.sub_sub]
    rfl
  refine ⟨e, native, others, hreturns, hcalls, hcall.target.trans (Machine.gpr_setGpr_self _ _ _),
    hcall.routine, fun i hi => ?_, hcall.entered_xmm.trans hxmm₁, hsaver, ?_, hkept,
    hresult.trans (hread.trans hsame.extended)⟩
  · obtain ⟨a, ha, hplace, -⟩ := argumentTable_get (by omega : i < 6)
    have hmem : a ∈ argumentTable := List.mem_of_getElem? ha
    have hne : ∀ a ∈ argumentTable, a.1 ≠ SysV.callScratch ∧ a.1 ≠ .rsp := by decide
    obtain ⟨hne₁, hne₂⟩ := hne a hmem
    rw [← integerArgument_moved hn m i hi, hplace, hplace, hscratch _ hne₁, if_neg hne₂,
      hgpr₁ _ hne₂]
  · intro c hc
    rcases List.mem_cons.1 hc with rfl | hc
    · exact hcall.entered_rsp.trans hrsp
    · rw [hothers c hc, hw₂.rsp, ← hw₁.rsp, hrsp]

end Run

end Stub

end Trampoline
