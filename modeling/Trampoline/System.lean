/-!
# Systems

What the system is asked for while a batch is laid out, and what it answers.

* `Mapper`: where the system puts a block of a given size, if it gives one;
* `System`: the page size, the places of blocks, and whether a filled block may be executed;
* `System.pageSize`, `pageSize_pos`: the size of a page, whatever the system says of it;
* `System.granting`, `System.consenting`, `System.denying`: systems that let every block be executed, or
  none.
-/

namespace Trampoline

/-- Where the system puts a new block of a given size; `none` if it refuses. -/
abbrev Mapper := Nat → Option Nat

/-- The answers of a system. -/
structure System where
  /-- The page size that the system reports. A number that is not positive reports none. -/
  reported : Int
  map : Mapper
  /-- Why the block at an address, of some size, may not be executed, if it may not. -/
  refusal? : Nat → Nat → Option String

namespace System

/-- The page size where the system reports none. -/
def fallbackPageSize : Nat := 4096

/-- The size of the system's pages. -/
def pageSize (sys : System) : Nat :=
  if 0 < sys.reported then sys.reported.toNat else fallbackPageSize

theorem pageSize_pos (sys : System) : 0 < sys.pageSize := by
  unfold pageSize
  split
  case isTrue hpos => omega
  case isFalse => decide

/-- A system that lets every block be executed. -/
def granting (reported : Int) (map : Mapper) : System := ⟨reported, map, fun _ _ => none⟩

/-- The system as it would be if it let every block be executed. -/
def consenting (sys : System) : System := { sys with refusal? := fun _ _ => none }

/-- The system as it would be if it let no block be executed. -/
def denying (sys : System) (reason : String) : System := { sys with refusal? := fun _ _ => some reason }

end System

end Trampoline
