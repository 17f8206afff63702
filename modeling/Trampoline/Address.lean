/-!
# Addresses

Machine words of 64 bits, as they name places in memory.

* `wordLimit`: the bound of sizes and offsets; `checkedAdd?`: a sum, if it stays below;
* `Address.null`, `Address.isNull`;
* `Address.text`: the written form, `0x` and the hexadecimal digits without leading zeros;
* `Address.order`, `signedOrder`: the orders of words as addresses and as signed numbers.
-/

namespace Trampoline

/-- The content of a machine register or of eight bytes of memory. -/
abbrev Word := BitVec 64

/-- The first number that no machine word holds. Sizes and offsets are natural numbers below it. -/
def wordLimit : Nat := 0x10000000000000000

/-- The sum of two sizes, if a machine word holds it. -/
def checkedAdd? (a b : Nat) : Option Nat := if a + b < wordLimit then some (a + b) else none

/-- A place in memory. -/
abbrev Address := BitVec 64

namespace Address

/-- The address that names no place. -/
def null : Address := 0

/-- Whether the address is the null address. -/
def isNull (a : Address) : Bool := a == null

/-- The address in hexadecimal, after `0x` and without leading zeros. -/
def text (a : Address) : String :=
  "0x" ++ String.ofList (Nat.toDigits 16 a.toNat)

/-- The order of addresses: that of their numbers, without a sign. -/
def order (a b : Address) : Ordering := compare a.toNat b.toNat

end Address

/-- The order of words that hold signed numbers. -/
def signedOrder (a b : Word) : Ordering := compare a.toInt b.toInt

end Trampoline
