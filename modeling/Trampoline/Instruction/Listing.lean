import Mathlib.Data.List.Basic
import Trampoline.Instruction.Decoding

/-!
# Listings

Code read from its first byte to its last, one instruction after the other.

* `length_lt_of_decode?`: an instruction takes at least one byte, so that reading goes on;
* `Located`: an instruction as it was read, and where; `Located.constant`: where its constant stands;
* `listing?`: all instructions in a stretch of bytes.
-/

namespace Trampoline

namespace Instruction

/-! ### Reading goes on

What each part of the decoder leaves is no longer than what it was given. -/

section Lengths

variable {bs rest : Bytes} {rex : Rex} {selector : Option Precision}

@[grind →] theorem length_le_of_constant? {n v : Nat} (h : constant? n bs = some (v, rest)) :
    rest.length ≤ bs.length := by
  unfold constant? at h
  split at h
  · cases h
    simp
  · cases h

@[grind →] theorem length_le_of_signed? {short : Bool} {v : BitVec 32}
    (h : signed? short bs = some (v, rest)) : rest.length ≤ bs.length := by
  unfold signed? at h
  grind [= Option.map_eq_some_iff]

@[grind →] theorem length_le_of_displacement? {mode : BitVec 2} {v : BitVec 32}
    (h : displacement? mode bs = some (v, rest)) : rest.length ≤ bs.length := by
  unfold displacement? at h
  grind

@[grind →] theorem length_le_of_operand? {mode : BitVec 2} {rm : BitVec 3} {o : Operand}
    (h : operand? rex mode rm bs = some (o, rest)) : rest.length ≤ bs.length := by
  unfold operand? at h
  grind [= Option.map_eq_some_iff]

@[grind →] theorem length_le_of_operands? {digit : BitVec 3} {o : Operand}
    (h : operands? rex bs = some (digit, o, rest)) : rest.length ≤ bs.length := by
  unfold operands? at h
  grind [= Option.map_eq_some_iff]

@[grind →] theorem length_le_of_escaped? {i : Instruction}
    (h : escaped? selector rex bs = some (i, rest)) : rest.length ≤ bs.length := by
  unfold escaped? at h
  grind [= Option.bind_eq_some_iff]

@[grind →] theorem length_le_of_plain? {opcode : Byte} {i : Instruction}
    (h : plain? rex opcode bs = some (i, rest)) : rest.length ≤ bs.length := by
  unfold plain? at h
  simp only [Option.bind_eq_bind] at h
  grind [= Option.map_eq_some_iff, = Option.bind_eq_some_iff]

@[grind →] theorem length_lt_of_opcode? {i : Instruction}
    (h : opcode? selector rex bs = some (i, rest)) : rest.length < bs.length := by
  unfold opcode? at h
  grind

@[grind →] theorem length_lt_of_afterSelector? {d : Decoded}
    (h : afterSelector? selector bs = some (d, rest)) : rest.length < bs.length := by
  unfold afterSelector? at h
  grind [= Option.map_eq_some_iff]

/-- An instruction takes at least one byte. -/
theorem length_lt_of_decode? {d : Decoded} (h : decode? bs = some (d, rest)) :
    rest.length < bs.length := by
  unfold decode? at h
  grind

end Lengths

/-! ### Listings -/

/-- An instruction as it was read, and where it was read. -/
structure Located where
  /-- Where its first byte stands. -/
  start : Nat
  /-- The number of its bytes. -/
  size : Nat
  decoded : Decoded
  deriving DecidableEq

/-- Where the constant of eight bytes stands in an instruction that has one. A constant comes last. -/
def Located.constant (l : Located) : Nat := l.start + l.size - 8

/-- All instructions in bytes of which the first stands at `start`. The last instruction has to end with
the last byte. -/
def listingFrom? (start : Nat) (bs : Bytes) : Option (List Located) :=
  if bs.isEmpty then some []
  else
    match _h : decode? bs with
    | none => none
    | some (d, rest) =>
      let size := bs.length - rest.length
      (listingFrom? (start + size) rest).map (⟨start, size, d⟩ :: ·)
termination_by bs.length
decreasing_by exact length_lt_of_decode? _h

/-- All instructions in a stretch of bytes, from the first byte to the last. -/
def listing? (bs : Bytes) : Option (List Located) := listingFrom? 0 bs

end Instruction

end Trampoline
