/-!
# Platforms

The machines that native functions run on: the processor, the operating system, and the sizes of
an address and of a C `long`, in bits.

* `Platform.host`: the machine this library generates code for;
* `Platform.isSysV`: whether calls follow the System V convention for 64-bit x86;
* `Platform.text`: the written form.
-/

namespace Trampoline

/-- A processor family. -/
inductive Cpu
  | x86_64
  | x86
  | aarch64
  | other
  deriving DecidableEq

/-- The name of the processor family. -/
def Cpu.name : Cpu → String
  | x86_64 => "X86_64"
  | x86 => "X86"
  | aarch64 => "Aarch64"
  | other => "Other"

/-- An operating system. -/
inductive Os
  | linux
  | macOs
  | freeBsd
  | windows
  | other
  deriving DecidableEq

/-- The name of the operating system. -/
def Os.name : Os → String
  | linux => "Linux"
  | macOs => "MacOs"
  | freeBsd => "FreeBsd"
  | windows => "Windows"
  | other => "Other"

/-- A machine and the two sizes that its C types leave open. -/
structure Platform where
  cpu : Cpu
  os : Os
  /-- Bits of an address. -/
  addressBits : Nat
  /-- Bits of a C `long`. -/
  longBits : Nat
  deriving DecidableEq

namespace Platform

/-- The running machine: 64-bit x86 under Linux. -/
def host : Platform := ⟨.x86_64, .linux, 64, 64⟩

/-- Whole bytes of an address. -/
def addressBytes (p : Platform) : Nat := p.addressBits / 8

/-- Whole bytes of a C `long`. -/
def longBytes (p : Platform) : Nat := p.longBits / 8

/-- Whether calls follow the System V convention for 64-bit x86, as they do on every such system
with full-size addresses but Windows. -/
def isSysV (p : Platform) : Bool :=
  p.cpu == .x86_64 && p.os != .windows && p.addressBits == 64

/-- The processor, the system and the two sizes. -/
def text (p : Platform) : String :=
  s!"{p.cpu.name}-{p.os.name} (ptr {p.addressBits} bits, long {p.longBits} bits)"

end Platform

end Trampoline
