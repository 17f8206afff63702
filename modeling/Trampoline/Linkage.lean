import Trampoline.Compiler
import Trampoline.Publication
import Trampoline.UnitIndex

/-!
# Linkage

What all linked stubs share: the regions, the index of units, and the count of units.

* `LinkedUnit`: a batch that was laid out and published; it holds its region until it is released;
* `Linkage.link`: make a region a unit and publish it;
* `Linkage.attach`: lay out what a compiler has gathered and link it;
* `Linkage.release`: give up a unit.
-/

namespace Trampoline

/-- A batch that was laid out and published. -/
structure LinkedUnit where
  id : UnitId
  region : RegionId
  publication : Publication
  deriving DecidableEq

/-- What all linked stubs share. -/
structure Linkage where
  arena : Arena
  units : UnitIndex
  /-- The number of the next unit. -/
  nextUnit : UnitId

namespace Linkage

variable {σ : Type}

/-- Nothing is linked yet. -/
def new : Linkage := ⟨.empty, .empty, 1⟩

/-- Make a region a unit, enter it in the index, and publish its stubs. -/
def link (l : Linkage) (r : Region) (receiver : Receiver σ) (s : σ) : Linkage × σ × LinkedUnit :=
  let (arena, region) := l.arena.add r
  let id := l.nextUnit
  let (s', publication) := receiver.publish arena region r.methods s
  (⟨arena, l.units.insert id region, id + 1⟩, s', ⟨id, region, publication⟩)

/-- What an attachment leaves and answers. -/
structure Attachment (σ : Type) where
  linkage : Linkage
  compiler : Compiler
  receiver : σ
  answer : Except CommitFailure (Option LinkedUnit)

/-- Lay out what a compiler has gathered and link it. Without stubs there is no unit; when they get no
region they are lost and nothing else changes. -/
def attach (l : Linkage) (sys : System) (c : Compiler) (receiver : Receiver σ) (s : σ) :
    Attachment σ :=
  match c.commit sys with
  | (c', none) => ⟨l, c', s, .ok none⟩
  | (c', some (.error e)) => ⟨l, c', s, .error e⟩
  | (c', some (.ok r)) =>
    let (l', s', unit) := l.link r receiver s
    ⟨l', c', s', .ok (some unit)⟩

/-- Give up a unit: it leaves the index and no longer holds its region. -/
def release (l : Linkage) (u : LinkedUnit) : Linkage :=
  { l with arena := l.arena.release u.region, units := (l.units.remove u.id).1 }

end Linkage

end Trampoline
