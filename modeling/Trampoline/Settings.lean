import Trampoline.Address
import Trampoline.Blank
import Trampoline.Rounding
import Trampoline.System

/-!
# Settings

How stubs are made and laid out.

* `Settings`: the switch, the alignment of stubs, the routine that saves error codes and the page
  size; `Settings.default`;
* `Settings.alignment?`, `Settings.effectivePageSize`, `effectivePageSize_pos`: what is in force when the
  asked value cannot be;
* `Settings.variableName`, `Settings.ofVariable`: the settings that the environment asks for, which
  can only switch stubs off.
-/

namespace Trampoline

/-- How stubs are made and laid out. -/
structure Settings where
  /-- Whether stubs are made at all. -/
  enabled : Bool
  /-- The alignment asked for. -/
  stubAlignment : Nat
  /-- The routine that saves the system's error code after a call. -/
  saver : Address
  /-- The page size asked for; the system's own if none. -/
  pageSize : Option Nat
  deriving DecidableEq

namespace Settings

/-- Stubs on, aligned to eight bytes, on the system's pages, with error codes saved by the routine at
`saver`. -/
def default (saver : Address) : Settings := ⟨true, 8, saver, none⟩

/-- The page size in force: a size of zero counts as none. -/
def effectivePageSize (s : Settings) (sys : System) : Nat :=
  match s.pageSize with
  | some n => if n = 0 then sys.pageSize else n
  | none => sys.pageSize

theorem effectivePageSize_pos (s : Settings) (sys : System) : 0 < s.effectivePageSize sys := by
  have hpage := sys.pageSize_pos
  unfold effectivePageSize
  split
  case h_1 n =>
    split
    · exact hpage
    · omega
  case h_2 => exact hpage

/-- The alignment in force: the least power of two not below the one asked for, if a machine word
holds it. -/
def alignment? (s : Settings) : Option Nat :=
  let a := leastPowerOfTwo s.stubAlignment
  if a < wordLimit then some a else none

/-- The environment variable that can switch stubs off. -/
def variableName : String := "CALLGATE_STUBS"

/-- Whether the variable's value leaves stubs on: all values do but four, in any mixture of capital
and small letters and with any blanks around them. -/
def leavesOn (value : String) : Bool :=
  let word := String.ofList ((trimBlank value.toList).map Char.toLower)
  !(["0", "false", "off", "no"].contains word)

/-- The settings that the environment asks for. A variable that is not set, or whose bytes are no
text, changes nothing. -/
def ofVariable (saver : Address) (value : Option ByteArray) : Settings :=
  match value.bind String.fromUTF8? with
  | some text => { default saver with enabled := leavesOn text }
  | none => default saver

end Settings

end Trampoline
