import Trampoline.Region

/-!
# Lifetimes of regions

All regions that were ever made, each with the number of its holders. A region lives while it has a
holder; a name of a region alone does not keep it alive.

* `Arena.add`: a new region with one holder;
* `Arena.get?`, `Arena.alive`: the region of a number, while it lives;
* `Arena.acquire`, `Arena.release`: one holder more and one fewer; a dead region stays dead;
* `Arena.base?`: where a region is, or was.
-/

namespace Trampoline

/-- The number of a region, in the order in which regions were made. -/
abbrev RegionId := Nat

/-- A region and the number of its holders. -/
structure Arena.Slot where
  region : Region
  holders : Nat

/-- The regions that were ever made. -/
structure Arena where
  slots : List Arena.Slot

namespace Arena

/-- No regions. -/
def empty : Arena := ⟨[]⟩

/-- A new region, held by the one who made it. -/
def add (a : Arena) (r : Region) : Arena × RegionId := (⟨a.slots ++ [⟨r, 1⟩]⟩, a.slots.length)

/-- The region of a number, if it lives. -/
def get? (a : Arena) (id : RegionId) : Option Region :=
  (a.slots[id]?).bind fun s => if s.holders = 0 then none else some s.region

/-- Whether a region lives. -/
def alive (a : Arena) (id : RegionId) : Bool := (a.get? id).isSome

/-- Whether any region lives. -/
def anyAlive (a : Arena) : Bool := a.slots.any (·.holders != 0)

/-- One more holder of a region, if it lives. -/
def acquire (a : Arena) (id : RegionId) : Arena :=
  ⟨a.slots.modify id fun s => if s.holders = 0 then s else { s with holders := s.holders + 1 }⟩

/-- One holder of a region fewer. -/
def release (a : Arena) (id : RegionId) : Arena :=
  ⟨a.slots.modify id fun s => { s with holders := s.holders - 1 }⟩

/-- The address of a region's first byte, whether it lives or not. -/
def base? (a : Arena) (id : RegionId) : Option Nat := (a.slots[id]?).map (·.region.base)

end Arena

end Trampoline
