import Trampoline.Address
import Trampoline.Bytes
import Trampoline.Platform

/-!
# Scalars in memory

The kinds of values that native code reads and writes through pointers, and their form in memory.

* `MarshalError`: what can go wrong in an access, with its `message`;
* `Scalar`: a kind of value; `Scalar.Value`: the bits of one value;
* `Scalar.storedBits`, `Scalar.size`: the room that a value takes on a platform;
* `Scalar.fieldSize`: the bytes that an access to a value touches, if there is such an access;
* `Scalar.toBytes`, `Scalar.ofBytes`: a value in memory, least significant byte first.
-/

namespace Trampoline

/-- What can go wrong in an access to memory. -/
inductive MarshalError
  /-- The access leaves the buffer. -/
  | outOfBounds (offset size length : Nat)
  /-- A place was expected and the null address given. -/
  | nullAddress
  /-- A `long` or an address of a size that no access knows. -/
  | unsupportedWidth (bits : Nat)
  deriving DecidableEq

/-- The error in words. -/
def MarshalError.message : MarshalError → String
  | outOfBounds offset size length =>
    s!"access of {size} bytes at offset {offset} exceeds buffer of {length} bytes"
  | nullAddress => "null pointer supplied where an address value is required"
  | unsupportedWidth bits => s!"unsupported native width of {bits} bits"

/-- A kind of value that memory holds. -/
inductive Scalar
  | i8
  | i16
  | i32
  | i64
  | f32
  | f64
  /-- A truth value, stored as an integer of 32 bits. -/
  | bool
  /-- A C `long`. -/
  | long
  | address
  deriving DecidableEq

namespace Scalar

/-- The bits of a value outside memory. A truth value has one; a `long` and an address fill a word. -/
def bits : Scalar → Nat
  | i8 => 8
  | i16 => 16
  | i32 | f32 => 32
  | i64 | f64 | long | address => 64
  | bool => 1

/-- The bits of one value. A floating-point number is its bit pattern. -/
abbrev Value (s : Scalar) := BitVec s.bits

/-- The bits of a value in memory. -/
def storedBits (p : Platform) : Scalar → Nat
  | i8 => 8
  | i16 => 16
  | i32 | f32 | bool => 32
  | i64 | f64 => 64
  | long => p.longBits
  | address => p.addressBits

/-- The whole bytes of a value in memory. -/
def size (p : Platform) (s : Scalar) : Nat := s.storedBits p / 8

/-- The bytes of an integer that is accessed with 32 or 64 bits, and with no other number of bits. -/
def integerField (bits : Nat) : Except MarshalError Nat :=
  if bits = 32 then .ok 4 else if bits = 64 then .ok 8 else .error (.unsupportedWidth bits)

/-- The bytes that an access to a value touches. A truth value is accessed as an integer of 32 bits, and a
`long` or an address as an integer of as many bits as it has on the platform. -/
def fieldSize (p : Platform) : Scalar → Except MarshalError Nat
  | i8 => .ok 1
  | i16 => .ok 2
  | i32 | f32 | bool => .ok 4
  | i64 | f64 => .ok 8
  | long => integerField p.longBits
  | address => integerField p.addressBits

/-- A value in a field of `n` bytes: its low bits, or with zeros above it. -/
def toBytes (s : Scalar) (n : Nat) (v : s.Value) : Bytes := Bytes.ofNat n v.toNat

/-- The value in a field. A `long` is extended by its sign, an address by zeros, and of a truth value
only the lowest bit counts. -/
def ofBytes (s : Scalar) (field : Bytes) : s.Value :=
  match s with
  | long => (BitVec.ofNat (8 * field.length) field.toNat).signExtend 64
  | s => BitVec.ofNat s.bits field.toNat

end Scalar

end Trampoline
