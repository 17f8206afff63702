import Trampoline.Arena

/-!
# Units and their regions

Which unit a piece of code belongs to.

* `UnitId`: the number of a unit;
* `UnitIndex`: from units to their regions, without holding them;
* `UnitIndex.insert`, `UnitIndex.remove`, `UnitIndex.prune`;
* `UnitIndex.get?`, `UnitIndex.findByAddress?`, `UnitIndex.live`: what is known of regions that live.
-/

namespace Trampoline

/-- The number of a unit; units are numbered from 1 in the order in which they were attached. -/
abbrev UnitId := Nat

/-- The written form of a unit's number. -/
def UnitId.text (id : UnitId) : String := s!"unit#{id}"

/-- From units to their regions; no unit has more than one entry. -/
structure UnitIndex where
  entries : List (UnitId × RegionId)

namespace UnitIndex

/-- No units. -/
def empty : UnitIndex := ⟨[]⟩

/-- The number of entries, those of dead regions included. -/
def size (i : UnitIndex) : Nat := i.entries.length

/-- The region of a unit, whether it lives or not. -/
def find? (i : UnitIndex) (unit : UnitId) : Option RegionId := i.entries.lookup unit

/-- Enter a unit, in place of what was known of it. -/
def insert (i : UnitIndex) (unit : UnitId) (region : RegionId) : UnitIndex :=
  ⟨i.entries.filter (·.1 != unit) ++ [(unit, region)]⟩

/-- Forget a unit, and say whether it was known. -/
def remove (i : UnitIndex) (unit : UnitId) : UnitIndex × Bool :=
  (⟨i.entries.filter (·.1 != unit)⟩, (i.find? unit).isSome)

/-- The region of a unit, if it lives. -/
def get? (i : UnitIndex) (a : Arena) (unit : UnitId) : Option RegionId :=
  (i.find? unit).filter a.alive

/-- A unit whose living region contains an address. -/
def findByAddress? (i : UnitIndex) (a : Arena) (address : Nat) : Option (UnitId × RegionId) :=
  i.entries.find? fun e => (a.get? e.2).any (·.contains address)

/-- The units whose regions live, in ascending order. -/
def live (i : UnitIndex) (a : Arena) : List UnitId :=
  ((i.entries.filter fun e => a.alive e.2).map (·.1)).mergeSort

/-- Forget the units whose regions are dead, and say how many there were. -/
def prune (i : UnitIndex) (a : Arena) : UnitIndex × Nat :=
  let kept : UnitIndex := ⟨i.entries.filter fun e => a.alive e.2⟩
  (kept, i.size - kept.size)

end UnitIndex

end Trampoline
