import Mathlib.Logic.Function.Basic
import Mathlib.Tactic.ByContra
import Trampoline.Proofs.Execution

/-!
# Moves that extend a sign

A sign-extending move should read the low bits of the register that it names. Whether there is a REX
byte decides what four of the register numbers mean to a move that reads one byte, and an encoding
leaves the REX byte out where no flag of it is set.

* `ShortWidth.extend`: what a move should make of the register that it reads;
* `Gpr.aliased?`: the registers whose second byte goes by the number of another register;
* `Sets`: what bytes do in every machine that is about to carry them out; `Sets.unique`;
* `sets_moveSigned`: what the encoding of each sign-extending move does;
* `moveSigned_reads`: which of them read the register that they name.

Stubs extend the register of results alone, and the low byte of that one has a number of its own.
-/

namespace Trampoline

/-- The low bits of a register as a signed number of four bytes, with zeros above it. -/
def ShortWidth.extend : ShortWidth → Word → Word
  | byte, v => ((v.setWidth 8).signExtend 32).setWidth 64
  | word, v => ((v.setWidth 16).signExtend 32).setWidth 64

/-- The register whose second byte goes by the number of this one where there is no REX byte. -/
def Gpr.aliased? : Gpr → Option Gpr
  | rsp => some rax
  | rbp => some rcx
  | rsi => some rdx
  | rdi => some rbx
  | _ => none

/-- A source of one byte is the low byte of the register that is named, but for the registers that have
an alias and no REX byte. -/
theorem Machine.byteOf_eq (m : Machine) (hasRex : Bool) (r : Gpr) :
    m.byteOf hasRex r =
      match r.aliased?, hasRex with
      | some q, false => (m.gpr q >>> 8).setWidth 8
      | _, _ => (m.gpr r).setWidth 8 := by
  have hsecond : ∀ v : Word, v.extractLsb' 8 8 = (v >>> 8).setWidth 8 := fun v =>
    BitVec.setWidth_ushiftRight_eq_extractLsb.symm
  cases r <;> cases hasRex <;> simp [byteOf, Gpr.aliased?, Gpr.number, hsecond] <;> rfl

namespace Instruction

/-! ### What bytes do -/

/-- Wherever they lie, the bytes are one instruction that puts a value into a register, and the value
depends on the general registers alone. The instruction changes no other register and no memory, it
makes no call, and what stands behind it comes next. -/
def Sets (bytes : Bytes) (dst : Gpr) (value : (Gpr → Word) → Word) : Prop :=
  ∀ (m : Machine) (routines : Routines), m.memory.read m.ip bytes.length = bytes →
    (Execution.start m).step ⟨m.ip, bytes.length⟩ routines =
      some (.start { m with
        ip := m.ip + BitVec.ofNat 64 bytes.length
        gpr := Function.update m.gpr dst (value m.gpr) })

/-- Bytes put one value into a register only. -/
theorem Sets.unique {bytes : Bytes} {dst : Gpr} {value value' : (Gpr → Word) → Word}
    (h : Sets bytes dst value) (h' : Sets bytes dst value') (hlen : bytes.length ≤ 2 ^ 64) :
    value = value' := by
  funext file
  -- Any register file is that of a machine which finds the bytes at address zero.
  let m : Machine := ⟨0, file, fun _ => 0, Store.write (fun _ => 0) 0 bytes⟩
  have hread : m.memory.read m.ip bytes.length = bytes := Store.read_write _ 0 hlen
  have heq := (h m (fun _ => id) hread).symm.trans (h' m (fun _ => id) hread)
  have hgpr : Function.update file dst (value file) dst =
      Function.update file dst (value' file) dst := by
    injection heq with heq
    exact congrArg (fun e : Execution => e.machine.gpr dst) heq
  simpa using hgpr

/-- The encoding of an instruction that is neither a call nor a return does what the instruction does. -/
theorem step_encode {i : Instruction} (hi : i.isPlain = true) {m : Machine} (routines : Routines)
    (hread : m.memory.read m.ip i.encode.length = i.encode) :
    (Execution.start m).step ⟨m.ip, i.encode.length⟩ routines = some (.start (m.next i)) := by
  have hall : encodeAll [i] = i.encode := by rw [encodeAll_cons, encodeAll, List.flatMap_nil,
    List.append_nil]
  have hup : Upcoming ⟨m.ip, i.encode.length⟩ m [i] := by
    refine ⟨⟨0, ?_, ?_⟩, ?_⟩
    · simp
    · rw [hall, Nat.zero_add]
    · rw [hall, hread]
  exact step_plain hup hi

/-! ### Sign-extending moves -/

/-- What a sign-extending move finds under the number of its source. A destination with a fourth bit
brings a REX byte, and so does a source with one. -/
def shortSource (size : ShortWidth) (dst src : Gpr) (file : Gpr → Word) : Word :=
  match size, src.aliased?, dst.high with
  | .byte, some q, false => file q >>> 8
  | _, _, _ => file src

/-- No register with an alias has a fourth bit. -/
theorem needed_of_aliased {dst src q : Gpr} (h : src.aliased? = some q) :
    (Rex.two false dst src).needed = dst.high := by
  have hhigh : ∀ r : Gpr, r.aliased? ≠ none → r.high = false := by
    intro r
    cases r <;> decide
  simp [Rex.needed, Rex.two, hhigh src (by simp [h])]

theorem signedSource_eq (m : Machine) (size : ShortWidth) (dst src : Gpr) :
    m.signedSource (moveSigned size dst src).hasRex size src =
      size.extend (shortSource size dst src m.gpr) := by
  cases size with
  | word => rfl
  | byte =>
    rw [Machine.signedSource, Machine.byteOf_eq, hasRex]
    cases hsrc : src.aliased? with
    | none => simp [shortSource, hsrc, ShortWidth.extend]
    | some q =>
      rw [needed_of_aliased hsrc]
      cases hdst : dst.high <;> simp [shortSource, hsrc, hdst, ShortWidth.extend]

/-- **What a sign-extending move does**: it extends what goes by the number of its source, and changes
nothing but its destination. -/
theorem sets_moveSigned (size : ShortWidth) (dst src : Gpr) :
    Sets (moveSigned size dst src).encode dst
      fun file => size.extend (shortSource size dst src file) := by
  intro m routines hread
  let next : Machine := { m with ip := m.ip + BitVec.ofNat 64 (moveSigned size dst src).encode.length }
  have hsource := signedSource_eq next size dst src
  have hupdate : (m.next (moveSigned size dst src)).gpr =
      Function.update m.gpr dst (size.extend (shortSource size dst src m.gpr)) := by
    funext q
    show (if q = dst then next.signedSource _ size src else m.gpr q) = _
    rw [Function.update_apply, hsource]
  rw [step_encode rfl routines hread, ← hupdate]
  rfl

/-- Four registers have an alias. -/
theorem aliased?_eq_none_iff {r : Gpr} : r.aliased? = none ↔ r ∉ [.rsp, .rbp, .rsi, .rdi] := by
  cases r <;> decide

/-- The low byte of a register does not show in the second byte of its alias. -/
theorem extend_shift_ne {src q : Gpr} (h : src.aliased? = some q) :
    ∃ file : Gpr → Word,
      ShortWidth.byte.extend (file q >>> 8) ≠ ShortWidth.byte.extend (file src) := by
  have hne : ∀ r : Gpr, r.aliased? ≠ some r := by
    intro r
    cases r <;> decide
  have hsrc : src ≠ q := by
    rintro rfl
    exact hne src h
  refine ⟨Function.update (fun _ => 0) q 0x100, ?_⟩
  rw [Function.update_of_ne hsrc, Function.update_self]
  decide

/-- A move reads the register that it names if it reads a whole word, or if its destination brings a REX
byte, or if the register has no alias; and else it does not. -/
theorem sets_named_iff (size : ShortWidth) (dst src : Gpr) :
    Sets (moveSigned size dst src).encode dst (fun file => size.extend (file src)) ↔
      size = .word ∨ dst.high = true ∨ src ∉ [.rsp, .rbp, .rsi, .rdi] := by
  have hsets := sets_moveSigned size dst src
  rw [← aliased?_eq_none_iff]
  constructor
  · intro hnamed
    by_contra hno
    obtain ⟨hsize, hdst, hsrc⟩ : size = .byte ∧ dst.high = false ∧ src.aliased? ≠ none := by
      cases size <;> simp_all
    obtain ⟨q, hq⟩ := Option.ne_none_iff_exists'.1 hsrc
    obtain ⟨file, hfile⟩ := extend_shift_ne hq
    have hlen : (moveSigned size dst src).encode.length ≤ 2 ^ 64 :=
      (length_encode_le _).trans (by decide)
    have heq := congrFun (hsets.unique hnamed hlen) file
    simp only [hsize, shortSource, hdst, hq] at heq
    exact hfile heq
  · intro hcases
    have hsource : shortSource size dst src = fun file => file src := by
      funext file
      rcases hcases with rfl | hdst | hsrc
      · rfl
      · simp [shortSource, hdst]
      · simp [shortSource, hsrc]
    rwa [hsource] at hsets

/-- **Which sign-extending moves read the register that they name.** The bytes of such a move always
extend something into the destination and change no other register. It is the low bits of the register
that is named, whatever the registers hold, unless the move reads one byte from `rsp`, `rbp`, `rsi` or
`rdi` into one of the first eight registers: such a move has no REX byte, and it reads the second byte of
`rax`, `rcx`, `rdx` or `rbx`. -/
theorem moveSigned_reads (size : ShortWidth) (dst src : Gpr) :
    Sets (moveSigned size dst src).encode dst
        (fun file => size.extend (shortSource size dst src file)) ∧
      (Sets (moveSigned size dst src).encode dst (fun file => size.extend (file src)) ↔
        size = .word ∨ dst.high = true ∨ src ∉ [.rsp, .rbp, .rsi, .rdi]) :=
  ⟨sets_moveSigned size dst src, sets_named_iff size dst src⟩

/-- The move of the low byte of `rsp` to `eax` is the move of the second byte of `rax`. -/
theorem moveSigned_rax_rsp :
    (moveSigned .byte .rax .rsp).encode = [0x0F, 0xBE, 0xC4] ∧
      Sets [0x0F, 0xBE, 0xC4] .rax (fun file => ShortWidth.byte.extend (file .rax >>> 8)) ∧
      ¬ Sets [0x0F, 0xBE, 0xC4] .rax (fun file => ShortWidth.byte.extend (file .rsp)) := by
  have hbytes : (moveSigned .byte .rax .rsp).encode = [0x0F, 0xBE, 0xC4] := by decide
  refine ⟨hbytes, hbytes ▸ sets_moveSigned .byte .rax .rsp, fun h => ?_⟩
  rw [← hbytes] at h
  exact absurd ((sets_named_iff .byte .rax .rsp).1 h) (by decide)

end Instruction

end Trampoline
