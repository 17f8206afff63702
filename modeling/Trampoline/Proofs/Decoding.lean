import Mathlib.Algebra.Ring.Nat
import Mathlib.Data.Option.Basic
import Mathlib.Data.Prod.Basic
import Mathlib.Tactic.SplitIfs
import Trampoline.Bytes.Lemmas
import Trampoline.Instruction.Decoding

/-!
# Reading back encoded instructions

The decoder knows nothing of the encoder. Still it reads every encoded instruction back, whatever bytes
follow, so encodings are self-delimiting.

* `operands?_memory`, `operands?_register`: operand bytes with their SIB byte and displacement;
* `decode?_encode`: a whole instruction;
* `length_encode_le`: the number of its bytes.
-/

namespace Trampoline

/-! ### Parts of single bytes -/

@[simp] theorem Rex.ofByte?_byte (x : Rex) : Rex.ofByte? x.byte = some x := by
  obtain ⟨w, r, x, b⟩ := x
  cases w <;> cases r <;> cases x <;> cases b <;> rfl

theorem Rex.byte_ne_selector (x : Rex) (p : Precision) : x.byte ≠ p.selector := by
  obtain ⟨w, r, x, b⟩ := x
  cases w <;> cases r <;> cases x <;> cases b <;> cases p <;> decide

theorem Rex.eq_absent {x : Rex} (h : x.needed = false) : x = Rex.absent := by
  obtain ⟨w, r, x, b⟩ := x
  simpa [Rex.needed, Rex.absent, and_assoc] using h

namespace Instruction

@[simp] theorem Fields.ofByte_modrm (mode : BitVec 2) (reg rm : BitVec 3) :
    Fields.ofByte (modrm mode reg rm) = ⟨mode, reg, rm⟩ := by
  revert mode reg rm
  decide +kernel

@[simp] theorem registerNumber_gpr (r : Gpr) : registerNumber r.high r.low = r.number := by
  cases r <;> rfl

@[simp] theorem registerNumber_xmm (r : Xmm) : registerNumber r.high r.low = r.number := by
  cases r <;> rfl

@[simp] theorem xmm?_number (r : Xmm) : xmm? r.number = some r := by
  cases r <;> rfl

/-! ### Constants -/

theorem constant?_append {n v : Nat} (h : v < 256 ^ n) (rest : Bytes) :
    constant? n (Bytes.ofNat n v ++ rest) = some (v, rest) := by
  have hl : (Bytes.ofNat n v).length = n := Bytes.length_ofNat n v
  unfold constant?
  rw [if_pos (by rw [List.length_append, hl]; omega), List.take_left' hl, List.drop_left' hl,
    Bytes.toNat_ofNat, Nat.mod_eq_of_lt h]

theorem signed?_long (v : BitVec 32) (rest : Bytes) :
    signed? false (imm32 v ++ rest) = some (v, rest) := by
  have h : v.toNat < 256 ^ 4 := v.isLt
  simp [signed?, imm32, constant?_append h]

theorem singleton_eq_ofNat (b : Byte) : [b] = Bytes.ofNat 1 b.toNat := by
  simp [Bytes.ofNat]

theorem signed?_short {v : BitVec 32} (h : fitsByte v = true) (rest : Bytes) :
    signed? true (v.setWidth 8 :: rest) = some (v, rest) := by
  have hv : (v.setWidth 8).signExtend 32 = v := by simpa [fitsByte] using h
  have hb : (v.setWidth 8).toNat < 256 ^ 1 := (v.setWidth 8).isLt
  rw [← List.singleton_append, singleton_eq_ofNat, signed?, if_pos rfl, constant?_append hb,
    Option.map_some]
  simp only [BitVec.ofNat_toNat, BitVec.setWidth_eq, hv]

/-- The displacement of a memory operand is read back in the mode that the operand byte shows. -/
theorem displacement?_append (m : Mem) (rest : Bytes) :
    displacement? m.mode (m.displacement ++ rest) = some (m.disp, rest) := by
  unfold displacement? Mem.displacement Mem.mode
  split_ifs with h0 h1 <;> simp_all [signed?_long, signed?_short]

/-! ### Operands -/

theorem Mem.mode_ne_three (m : Mem) : m.mode ≠ 3 := by
  unfold Mem.mode
  split_ifs <;> decide

/-- A base register whose low bits are five always comes with a displacement. -/
theorem Mem.mode_ne_zero {m : Mem} (h : m.base.low = 5) : m.mode ≠ 0 := by
  have hd : m.base.needsDisplacement = true := by simpa [Gpr.needsDisplacement] using h
  unfold Mem.mode
  rw [hd]
  split_ifs <;> simp_all

theorem sib_fields (low : BitVec 3) :
    (sib low).extractLsb' 3 3 = 4 ∧ (sib low).extractLsb' 0 3 = low := by
  revert low
  decide

/-- Operand bytes of a memory operand are read back, with or without a SIB byte. -/
theorem operands?_memory (rex : Rex) (reg : BitVec 3) (m : Mem) (rest : Bytes)
    (hx : rex.x = false) (hb : rex.b = m.base.high) :
    operands? rex (m.operand reg ++ rest) = some (reg, .memory m, rest) := by
  have h3 := Mem.mode_ne_three m
  simp only [Mem.operand, List.cons_append, operands?, Fields.ofByte_modrm]
  unfold operand?
  rw [if_neg h3]
  by_cases h4 : m.base.low = 4
  · have hs : m.base.needsSib = true := by simpa [Gpr.needsSib] using h4
    have h5 : ¬ (m.mode = 0 ∧ m.base.low = 5) := by rw [h4]; simp
    obtain ⟨hi, hl⟩ := sib_fields m.base.low
    rw [if_pos h4, if_pos hs]
    simp only [List.cons_append, List.nil_append]
    rw [hi, hl, if_neg h5, displacement?_append, hx, hb, registerNumber_gpr, Gpr.ofNumber_number]
    rfl
  · have hs : m.base.needsSib = false := by simpa [Gpr.needsSib] using h4
    have h5 : ¬ (m.mode = 0 ∧ m.base.low = 5) := fun ⟨h0, h5⟩ => Mem.mode_ne_zero h5 h0
    rw [if_neg h4, if_neg h5, hs]
    simp only [Bool.false_eq_true, if_false, List.nil_append]
    rw [displacement?_append, hb, registerNumber_gpr, Gpr.ofNumber_number]
    rfl

/-- The operand byte of a register operand is read back. -/
theorem operands?_register (rex : Rex) (reg : BitVec 3) (rm : Gpr) (rest : Bytes)
    (hb : rex.b = rm.high) :
    operands? rex (modrm direct reg rm.low :: rest) = some (reg, .register rm.number, rest) := by
  simp [operands?, operand?, direct, hb]

/-! ### Prefixes -/

theorem ifNeeded_of_needed {x : Rex} (h : x.needed = true) : x.ifNeeded = [x.byte] := if_pos h

theorem ifNeeded_of_not_needed {x : Rex} (h : x.needed = false) : x.ifNeeded = [] := by
  simp [Rex.ifNeeded, h]

/-- The REX byte is read back before an opcode that is no REX byte itself; without one all flags are
off. -/
theorem afterSelector?_ifNeeded (selector : Option Precision) (x : Rex) {opcode : Byte} (bs : Bytes)
    (ho : Rex.ofByte? opcode = none) :
    afterSelector? selector (x.ifNeeded ++ opcode :: bs) =
      (opcode? selector x (opcode :: bs)).map fun (i, rest) => (⟨i, x.needed⟩, rest) := by
  cases hx : x.needed with
  | true =>
    rw [ifNeeded_of_needed hx, List.singleton_append, afterSelector?, Rex.ofByte?_byte]
  | false =>
    rw [ifNeeded_of_not_needed hx, List.nil_append, afterSelector?, ho, Rex.eq_absent hx]

theorem decode?_ifNeeded (x : Rex) {opcode : Byte} (bs : Bytes) (ho : Rex.ofByte? opcode = none)
    (hs : ∀ p : Precision, opcode ≠ p.selector) :
    decode? (x.ifNeeded ++ opcode :: bs) =
      (opcode? none x (opcode :: bs)).map fun (i, rest) => (⟨i, x.needed⟩, rest) := by
  rw [← afterSelector?_ifNeeded none x bs ho]
  cases hx : x.needed with
  | true =>
    have h3 : x.byte ≠ 0xF3 := Rex.byte_ne_selector x .single
    have h2 : x.byte ≠ 0xF2 := Rex.byte_ne_selector x .double
    rw [ifNeeded_of_needed hx, List.singleton_append, decode?, if_neg h3, if_neg h2]
  | false =>
    have h3 : opcode ≠ 0xF3 := hs .single
    have h2 : opcode ≠ 0xF2 := hs .double
    rw [ifNeeded_of_not_needed hx, List.nil_append, decode?, if_neg h3, if_neg h2]

theorem decode?_selector (p : Precision) (x : Rex) {opcode : Byte} (bs : Bytes)
    (ho : Rex.ofByte? opcode = none) :
    decode? (p.selector :: (x.ifNeeded ++ opcode :: bs)) =
      (opcode? (some p) x (opcode :: bs)).map fun (i, rest) => (⟨i, x.needed⟩, rest) := by
  rw [← afterSelector?_ifNeeded (some p) x bs ho]
  cases p <;> rfl

/-- An opcode of one byte behind a REX byte with the width flag. -/
theorem decode?_wide {x : Rex} {opcode : Byte} (bs : Bytes) (hx : x.w = true)
    (ho : Rex.ofByte? opcode = none) (hs : ∀ p : Precision, opcode ≠ p.selector)
    (he : opcode ≠ 0x0F) :
    decode? (x.byte :: opcode :: bs) =
      (plain? x opcode bs).map fun (i, rest) => (⟨i, true⟩, rest) := by
  have hn : x.needed = true := by simp [Rex.needed, hx]
  have h := decode?_ifNeeded x bs ho hs
  rw [ifNeeded_of_needed hn, List.singleton_append, hn] at h
  rw [h, opcode?, if_neg he, if_pos rfl]

/-- The opcodes of one byte that stand behind a REX byte with the width flag. -/
theorem decode?_wide_opcode {x : Rex} {opcode : Byte} (bs : Bytes) (hx : x.w = true)
    (ho : opcode ∈ [0x89, 0x8B, 0x81, 0x83]) :
    decode? (x.byte :: opcode :: bs) =
      (plain? x opcode bs).map fun (i, rest) => (⟨i, true⟩, rest) := by
  apply decode?_wide bs hx
  · revert ho; revert opcode; decide +kernel
  · intro p; revert ho; revert opcode; cases p <;> decide +kernel
  · revert ho; revert opcode; decide +kernel

/-! ### Instructions -/

theorem decode?_move (dst src : Gpr) (rest : Bytes) :
    decode? ((move dst src).encode ++ rest) = some (⟨move dst src, true⟩, rest) := by
  rw [encode, List.cons_append, List.cons_append, List.singleton_append,
    decode?_wide_opcode _ rfl (by decide), plain?, operands?_register _ _ _ _ rfl]
  simp [Rex.two]

theorem decode?_load (dst : Gpr) (src : Mem) (rest : Bytes) :
    decode? ((load dst src).encode ++ rest) = some (⟨load dst src, true⟩, rest) := by
  rw [encode, List.append_assoc, List.cons_append, List.singleton_append,
    decode?_wide_opcode _ rfl (by decide), plain?, operands?_memory _ _ _ _ rfl rfl]
  simp [Rex.mem]

theorem decode?_store (dst : Mem) (src : Gpr) (rest : Bytes) :
    decode? ((store dst src).encode ++ rest) = some (⟨store dst src, true⟩, rest) := by
  rw [encode, List.append_assoc, List.cons_append, List.singleton_append,
    decode?_wide_opcode _ rfl (by decide), plain?, operands?_memory _ _ _ _ rfl rfl]
  simp [Rex.mem]

/-- The opcodes of the move of a 64-bit constant: five fixed bits and three of the register. -/
theorem moveImm_opcode (low : BitVec 3) :
    let opcode : Byte := 0b10111#5 ++ low
    Rex.ofByte? opcode = none ∧ (∀ p : Precision, opcode ≠ p.selector) ∧ opcode ≠ 0x0F ∧
      opcode ≠ 0xC3 ∧ opcode ≠ 0xFF ∧ opcode.extractLsb' 3 5 = 0b10111#5 ∧
      opcode.extractLsb' 0 3 = low := by
  have h : ∀ low : BitVec 3, ∀ p ∈ [Precision.single, .double],
      (0b10111#5 ++ low : Byte) ≠ p.selector := by decide
  refine ⟨?_, fun p => h low p (by cases p <;> simp), ?_⟩ <;> revert low <;> decide

theorem decode?_moveImm (dst : Gpr) (v : Word) (rest : Bytes) :
    decode? ((moveImm dst v).encode ++ rest) = some (⟨moveImm dst v, true⟩, rest) := by
  obtain ⟨hrex, hsel, hesc, hret, hcall, hupper, hlow⟩ := moveImm_opcode dst.low
  have hv : v.toNat < 256 ^ 8 := v.isLt
  rw [encode, List.append_assoc, List.cons_append, List.singleton_append, imm64,
    decode?_wide _ rfl hrex hsel hesc, plain?, if_neg hret, if_neg hcall, if_pos hupper, hlow,
    constant?_append hv]
  simp [Rex.one]

theorem escaped?_moveSigned {x : Rex} (size : ShortWidth) {dst src : Gpr} (rest : Bytes)
    (hw : x.w = false) (hr : x.r = dst.high) (hb : x.b = src.high) :
    escaped? none x (size.opcode :: modrm direct dst.low src.low :: rest) =
      some (moveSigned size dst src, rest) := by
  simp only [escaped?, operands?_register _ _ _ _ hb, hw, hr, registerNumber_gpr,
    Gpr.ofNumber_number]
  cases size <;> rfl

theorem decode?_moveSigned (size : ShortWidth) (dst src : Gpr) (rest : Bytes) :
    decode? ((moveSigned size dst src).encode ++ rest) =
      some (⟨moveSigned size dst src, (Rex.two false dst src).needed⟩, rest) := by
  rw [encode, List.append_assoc, List.cons_append, List.cons_append, List.singleton_append,
    decode?_ifNeeded _ _ (by rfl) (by intro p; cases p <;> decide), opcode?, if_pos rfl,
    escaped?_moveSigned size rest rfl rfl rfl, Option.map_some]

@[simp] theorem arith?_digit (op : Arith) : arith? op.digit = some op := by cases op <;> rfl

theorem decode?_arith (op : Arith) (dst : Gpr) (v : BitVec 32) (rest : Bytes) :
    decode? ((arith op dst v).encode ++ rest) = some (⟨arith op dst v, true⟩, rest) := by
  rw [encode]
  split_ifs with h
  · rw [List.cons_append, List.cons_append, List.cons_append, List.singleton_append,
      decode?_wide_opcode _ rfl (by decide), plain?, operands?_register _ _ _ _ rfl]
    simp [Rex.one, signed?_short h]
  · rw [List.append_assoc, List.cons_append, List.cons_append, List.singleton_append,
      decode?_wide_opcode _ rfl (by decide), plain?, operands?_register _ _ _ _ rfl]
    simp [Rex.one, signed?_long]

theorem decode?_call (target : Gpr) (rest : Bytes) :
    decode? ((call target).encode ++ rest) =
      some (⟨call target, (Rex.one false target).needed⟩, rest) := by
  rw [encode, List.append_assoc, List.cons_append, List.singleton_append,
    decode?_ifNeeded _ _ (by rfl) (by intro p; cases p <;> decide), opcode?, if_neg (by decide),
    if_pos rfl, plain?, operands?_register _ _ _ _ rfl]
  simp

theorem decode?_floatTransfer (p : Precision) (opcode : Byte) (x : Xmm) (m : Mem) (rest : Bytes) :
    decode? (floatTransfer p opcode x m ++ rest) =
      (escaped? (some p) (Rex.mem false x.high m) (opcode :: (m.operand x.low ++ rest))).map
        fun (i, rest) => (⟨i, (Rex.mem false x.high m).needed⟩, rest) := by
  rw [floatTransfer, List.cons_append, List.cons_append, List.cons_append, List.append_assoc,
    List.append_assoc, List.cons_append, List.singleton_append, decode?_selector _ _ _ (by rfl),
    opcode?, if_pos rfl]

theorem escaped?_memory {p : Precision} {x : Rex} {r : Xmm} {m : Mem} {opcode : Byte} (rest : Bytes)
    (hr : x.r = r.high) (hx : x.x = false) (hb : x.b = m.base.high) :
    escaped? (some p) x (opcode :: (m.operand r.low ++ rest)) =
      if opcode = 0x10 then some (loadFloat p r m, rest)
      else if opcode = 0x11 then some (storeFloat p m r, rest) else none := by
  simp only [escaped?, operands?_memory _ _ _ _ hx hb, hr, registerNumber_xmm, xmm?_number,
    Option.bind_some]

theorem decode?_loadFloat (p : Precision) (dst : Xmm) (src : Mem) (rest : Bytes) :
    decode? ((loadFloat p dst src).encode ++ rest) =
      some (⟨loadFloat p dst src, (Rex.mem false dst.high src).needed⟩, rest) := by
  rw [encode, decode?_floatTransfer, escaped?_memory rest rfl rfl rfl, if_pos rfl, Option.map_some]

theorem decode?_storeFloat (p : Precision) (dst : Mem) (src : Xmm) (rest : Bytes) :
    decode? ((storeFloat p dst src).encode ++ rest) =
      some (⟨storeFloat p dst src, (Rex.mem false src.high dst).needed⟩, rest) := by
  rw [encode, decode?_floatTransfer, escaped?_memory rest rfl rfl rfl, if_neg (by decide),
    if_pos rfl, Option.map_some]

/-- Whether the encoding of an instruction has a REX byte. -/
def hasRex : Instruction → Bool
  | moveSigned _ dst src => (Rex.two false dst src).needed
  | call target => (Rex.one false target).needed
  | ret => false
  | loadFloat _ dst src => (Rex.mem false dst.high src).needed
  | storeFloat _ dst src => (Rex.mem false src.high dst).needed
  | move .. | load .. | store .. | moveImm .. | arith .. => true

/-- **Encodings are self-delimiting**: whatever follows an encoded instruction, the decoder reads that
instruction and stops behind it. -/
theorem decode?_encode (i : Instruction) (rest : Bytes) :
    decode? (i.encode ++ rest) = some (⟨i, i.hasRex⟩, rest) := by
  cases i with
  | move dst src => exact decode?_move dst src rest
  | load dst src => exact decode?_load dst src rest
  | store dst src => exact decode?_store dst src rest
  | moveImm dst v => exact decode?_moveImm dst v rest
  | moveSigned size dst src => exact decode?_moveSigned size dst src rest
  | arith op dst v => exact decode?_arith op dst v rest
  | call target => exact decode?_call target rest
  | ret => rfl
  | loadFloat p dst src => exact decode?_loadFloat p dst src rest
  | storeFloat p dst src => exact decode?_storeFloat p dst src rest

/-! ### Lengths -/

theorem length_ifNeeded_le (x : Rex) : x.ifNeeded.length ≤ 1 := by
  unfold Rex.ifNeeded
  split_ifs <;> simp

theorem length_operand_le (reg : BitVec 3) (m : Mem) : (m.operand reg).length ≤ 6 := by
  unfold Mem.operand Mem.displacement imm32
  split_ifs <;> simp

/-- No instruction of a stub takes more than ten bytes. -/
theorem length_encode_le (i : Instruction) : i.encode.length ≤ 10 := by
  cases i with
  | load dst src => have := length_operand_le dst.low src; simp [encode]; omega
  | store dst src => have := length_operand_le src.low dst; simp [encode]; omega
  | moveSigned size dst src =>
    have := length_ifNeeded_le (Rex.two false dst src); simp [encode]; omega
  | arith op dst v => rw [encode]; split_ifs <;> simp [imm32]
  | call target => have := length_ifNeeded_le (Rex.one false target); simp [encode]; omega
  | loadFloat p dst src =>
    have := length_ifNeeded_le (Rex.mem false dst.high src)
    have := length_operand_le dst.low src
    simp [encode, floatTransfer]; omega
  | storeFloat p dst src =>
    have := length_ifNeeded_le (Rex.mem false src.high dst)
    have := length_operand_le src.low dst
    simp [encode, floatTransfer]; omega
  | _ => simp [encode, imm64]

end Instruction

end Trampoline
