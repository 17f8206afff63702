import Trampoline.Platform
import Trampoline.Width

/-!
# Value types and slots

The types of a native function's parameters and result, and the slots that carry them.

* `ValueType.isIntegral`, `ValueType.isFloat`;
* `Slot`: a type that may be marked wide, which makes an integer fill a whole word;
* `Slot.width?`: the integer width that a slot has on a platform, if it has one;
* `Slot.isLong32`, `Slot.isLong64`, `Slot.isInt32`: the three questions a reader of integer
  arguments asks;
* `Slot.letter`: the letter that stands for the slot in a descriptor.
-/

namespace Trampoline

/-- The type of a native parameter or result. -/
inductive ValueType
  | void
  | bool
  | i8
  | i16
  | i32
  | i64
  /-- A C `long`, whose size the platform decides. -/
  | long
  /-- A C enumeration. -/
  | enum
  | f32
  | f64
  | address
  /-- A structure passed by value. -/
  | struct
  deriving DecidableEq

namespace ValueType

/-- The name of the type. -/
def name : ValueType → String
  | void => "void"
  | bool => "bool"
  | i8 => "i8"
  | i16 => "i16"
  | i32 => "i32"
  | i64 => "i64"
  | long => "long"
  | enum => "enum"
  | f32 => "f32"
  | f64 => "f64"
  | address => "address"
  | struct => "struct"

/-- Whether values of the type are integers; truth values and addresses are not. -/
def isIntegral : ValueType → Bool
  | i8 | i16 | i32 | i64 | long | enum => true
  | void | bool | f32 | f64 | address | struct => false

/-- Whether values of the type are floating-point numbers. -/
def isFloat : ValueType → Bool
  | f32 | f64 => true
  | _ => false

end ValueType

/-- A place for one value in a signature. -/
structure Slot where
  type : ValueType
  /-- Whether an integer in the slot fills a whole word. -/
  wide : Bool
  deriving DecidableEq

namespace Slot

/-- The slot as it stands in a parameter list. -/
def text (s : Slot) : String :=
  if s.wide then "wide " ++ s.type.name else s.type.name

/-- The integer width of the slot. A wide integer fills a word; a `long` has a width only where its
size is one of the four. -/
def width? (p : Platform) (s : Slot) : Option Width :=
  if s.wide && s.type.isIntegral then
    some .w64
  else
    match s.type with
    | .i8 => some .w8
    | .i16 => some .w16
    | .i32 | .enum => some .w32
    | .i64 => some .w64
    | .long => Width.ofBits? p.longBits
    | .void | .bool | .f32 | .f64 | .address | .struct => none

/-- Whether the slot holds a `long` of 32 bits. -/
def isLong32 (p : Platform) (s : Slot) : Bool :=
  p.longBits == 32 && s.type == .long && !s.wide

/-- Whether the slot holds an integer of 64 bits that is declared as `i64` or `long`. -/
def isLong64 (p : Platform) (s : Slot) : Bool :=
  match s.type with
  | .i64 => true
  | .long => p.longBits == 64 || s.wide
  | _ => false

/-- Whether a reader that knows only 32-bit integers can take the slot's value. -/
def isInt32 (p : Platform) (s : Slot) : Bool :=
  match s.type with
  | .bool | .i8 | .i16 | .i32 | .enum => !s.wide
  | _ => s.isLong32 p

/-- The letter that stands for the slot in a descriptor. An integer is named by its width, an
address by the platform's address size, and what no letter fits is `L`. -/
def letter (p : Platform) (s : Slot) : Char :=
  match s.width? p with
  | some .w8 => 'B'
  | some .w16 => 'S'
  | some .w32 => 'I'
  | some .w64 => 'J'
  | none =>
    match s.type with
    | .void => 'V'
    | .bool => 'Z'
    | .f32 => 'F'
    | .f64 => 'D'
    | .address => if p.addressBits == 64 then 'J' else 'I'
    | _ => 'L'

end Slot

end Trampoline
