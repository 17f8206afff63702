import Trampoline.Width

/-!
# Native integer types

The signed and unsigned integers that cross a call boundary, each in a whole machine word.

* `IntegerType.Value`: the bits of one value;
* `IntegerType.widen`: the value in a word, sign-extended or zero-extended as its type says;
* `IntegerType.narrow`: the value that a reader of the type sees in a word;
* `IntegerType.toInt`, `IntegerType.ofInt`: the number that the bits stand for;
* `truth`: the truth value that a reader sees in a word.
-/

namespace Trampoline

/-- A fixed-size integer that a native function takes or returns. -/
inductive IntegerType
  | i8
  | i16
  | i32
  | i64
  | u8
  | u16
  | u32
  deriving DecidableEq

namespace IntegerType

/-- The size of the type's values. -/
def width : IntegerType → Width
  | i8 | u8 => .w8
  | i16 | u16 => .w16
  | i32 | u32 => .w32
  | i64 => .w64

/-- Whether the top bit is a sign. -/
def signed : IntegerType → Bool
  | i8 | i16 | i32 | i64 => true
  | u8 | u16 | u32 => false

/-- The bits of one value of the type. -/
abbrev Value (t : IntegerType) := BitVec t.width.bits

/-- The value in a whole word. -/
def widen (t : IntegerType) (v : t.Value) : Word :=
  if t.signed then v.signExtend 64 else v.setWidth 64

/-- The value that a reader of the type sees in a word: the low bits. -/
def narrow (t : IntegerType) (x : Word) : t.Value := x.setWidth t.width.bits

/-- The number that a value stands for. -/
def toInt (t : IntegerType) (v : t.Value) : Int :=
  if t.signed then v.toInt else v.toNat

/-- The value that stands for `n`, up to whole turns of the type's range. -/
def ofInt (t : IntegerType) (n : Int) : t.Value := BitVec.ofInt t.width.bits n

end IntegerType

/-- The truth value that a reader sees in a word: its lowest bit. -/
def truth (x : Word) : Bool := x.getLsbD 0

end Trampoline
