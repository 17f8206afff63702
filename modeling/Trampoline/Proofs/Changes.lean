import Mathlib.Data.List.Induction
import Trampoline.Linkage.Lemmas
import Trampoline.Proofs.Dispatch
import Trampoline.Session.History

/-!
# What a step changes

Of the many steps of a session few change anything about regions, and each of these in one way.

* `Learns`, `learns_bind`, `learns_publish`: tables learn nothing but sensible methods of living regions;
* `Session.Change`: the ways in which a session can change;
* `Session.change_turn`: every step changes the session in one of these ways.
-/

namespace Trampoline

/-! ### Tables -/

/-- A binding is in one of the tables. -/
def Binds (tables : List Table) (b : Binding) : Prop := ∃ t ∈ tables, b ∈ t.bindings

/-- Every binding of `new` was in a table before, or it is that of a sensible method. -/
def Learns (a : Arena) (old new : List Table) : Prop :=
  ∀ b, Binds new b → Binds old b ∨ b.method.Sensible a b.region

theorem Learns.refl (a : Arena) (tables : List Table) : Learns a tables tables := fun _ => .inl

theorem Learns.trans {a : Arena} {old mid new : List Table} (h : Learns a old mid)
    (h' : Learns a mid new) : Learns a old new := by
  intro b hb
  rcases h' b hb with hb | hb
  · exact h b hb
  · exact .inr hb

/-- A table in place of another that has all its bindings but sensible ones. -/
theorem learns_set {a : Arena} {tables : List Table} {i : Nat} {t t' : Table} (ht : tables[i]? = some t)
    (h : ∀ b ∈ t'.bindings, b ∈ t.bindings ∨ b.method.Sensible a b.region) :
    Learns a tables (tables.set i t') := by
  rintro b ⟨t'', ht'', hb⟩
  rcases List.mem_or_eq_of_mem_set ht'' with hmem | rfl
  · exact .inl ⟨t'', hmem, hb⟩
  · rcases h b hb with hb | hb
    · exact .inl ⟨t, List.mem_of_getElem? ht, hb⟩
    · exact .inr hb

theorem Session.ReceiverChoice.learns_bind (c : ReceiverChoice) (a : Arena) (tables : List Table)
    (m : Method) (region : RegionId) : Learns a tables (c.receiver.bind a tables m region).1 := by
  unfold receiver Receiver.refusing
  by_cases hrefused : c.refused.contains m.name = true
  · simpa [hrefused] using Learns.refl a tables
  · cases htable : c.table with
    | none => simpa [hrefused, Receiver.accepting] using Learns.refl a tables
    | some i =>
      cases hi : tables[i]? with
      | none => simpa [hrefused, Receiver.nth, hi] using Learns.refl a tables
      | some t =>
        simp only [hrefused, Receiver.nth, hi]
        exact learns_set hi fun b => Table.mem_bind

/-- Publishing teaches tables nothing but sensible methods. -/
theorem Session.ReceiverChoice.learns_publish (c : ReceiverChoice) (a : Arena) (region : RegionId)
    (ms : List Method) (tables : List Table) :
    Learns a tables (c.receiver.publish a region ms tables).1 := by
  induction ms using List.reverseRecOn with
  | nil => exact .refl a tables
  | append_singleton ms m ih =>
    simp only [Receiver.publish, List.foldl_append, List.foldl_cons, List.foldl_nil] at ih ⊢
    exact ih.trans (c.learns_bind a _ m region)

namespace Session

/-! ### Changes -/

/-- The ways in which a turn can change a session. -/
inductive Change (s : Session) (t : Turn) : Session → Prop
  /-- Nothing that is about regions. -/
  | other (compilers : List CompilerHandle) (errorCode : ErrorCode) :
    Change s t { s with compilers, errorCode }
  /-- Tables learn methods of living regions or forget some. -/
  | tables (tables : List Table) (h : Learns s.arena s.tables tables) : Change s t { s with tables }
  /-- A region is made, and the session holds it. -/
  | commit (r : Region) (h : s.LaysOut t r) :
    Change s t { s.withArena (s.arena.add r).1 with held := s.held ++ [(s.arena.add r).2] }
  /-- A region is made, and a new unit holds it. -/
  | attach (r : Region) (compilers : List CompilerHandle) (tables : List Table)
    (publication : Publication) (h : s.LaysOut t r)
    (htables : Learns (s.arena.add r).1 s.tables tables) :
    Change s t { s with
      compilers, tables
      linkage := ⟨(s.arena.add r).1, s.linkage.units.insert s.linkage.nextUnit (s.arena.add r).2,
        s.linkage.nextUnit + 1⟩
      units := s.units ++ [⟨⟨s.linkage.nextUnit, (s.arena.add r).2, publication⟩, false⟩] }
  /-- A unit is released. -/
  | release (i : Nat) (u : UnitHandle) (h : s.units[i]? = some u) (hu : u.released = false) :
    Change s t { s with
      linkage := s.linkage.release u.unit
      units := s.units.set i { u with released := true } }
  /-- The session takes one more handle on a living region. -/
  | share (id : RegionId) (hlive : s.arena.alive id = true) :
    Change s t { s.withArena (s.arena.acquire id) with held := s.held ++ [id] }
  /-- The session gives up one handle on a region. -/
  | drop (id : RegionId) (h : id ∈ s.held) :
    Change s t { s.withArena (s.arena.release id) with held := s.held.erase id }
  /-- A guard is kept that was looked up, or that is the copy of one that is kept. -/
  | keep (g : Guard) (h : (∃ tb ∈ s.tables, ∃ name, tb.lookup? s.arena name = some g) ∨
      some g ∈ s.guards) : Change s t (s.keepGuard g)
  /-- A guard is copied that was given up. -/
  | blank : Change s t { s with guards := s.guards ++ [none] }
  /-- A guard is given up. -/
  | dropGuard (i : Nat) (g : Guard) (h : s.guards[i]? = some (some g)) :
    Change s t { s.withArena (s.arena.release g.region) with guards := s.guards.set i none }
  /-- A unit is entered in an index by hand, with a living region. -/
  | track (choice : IndexChoice) (i : Nat) (region : RegionId) (u : UnitHandle)
    (hstep : t.step = .track choice i region) (h : s.units[i]? = some u)
    (hlive : s.arena.alive region = true) :
    Change s t (s.setIndex choice ((s.index choice).insert u.unit.id region))
  /-- A unit is removed from an index by hand. -/
  | untrack (choice : IndexChoice) (i : Nat) (u : UnitHandle) (hstep : t.step = .untrack choice i)
    (h : s.units[i]? = some u) :
    Change s t (s.setIndex choice ((s.index choice).remove u.unit.id).1)
  | prune (choice : IndexChoice) :
    Change s t (s.setIndex choice ((s.index choice).prune s.arena).1)

variable {s : Session} {t : Turn}

/-- A turn without any effect. -/
theorem Change.none : Change s t s := .other s.compilers s.errorCode

section Lookups

variable {P : Session → Prop}

/-- A step about a region does nothing if the region is dead. -/
theorem onRegion_induction {id : RegionId} {f : Region → Session × Answer} (hs : P s)
    (hf : ∀ r, s.arena.get? id = some r → P (f r).1) : P (s.onRegion id f).1 := by
  unfold onRegion
  cases h : s.arena.get? id with
  | none => exact hs
  | some r => exact hf r h

theorem onLocation_induction {l : Location} {f : Nat → Session × Answer} (hs : P s)
    (hf : ∀ address, P (f address).1) : P (s.onLocation l f).1 := by
  unfold onLocation
  cases s.resolve? l with
  | none => exact hs
  | some address => exact hf address

theorem onCompiler_induction {i : Nat} {f : CompilerHandle → Session × Answer} (hs : P s)
    (hf : ∀ h, s.compilers[i]? = some h → P (f h).1) : P (s.onCompiler i f).1 := by
  unfold onCompiler
  cases h : s.compilers[i]? with
  | none => exact hs
  | some handle => exact hf handle h

theorem onTable_induction {i : Nat} {f : Table → Session × Answer} (hs : P s)
    (hf : ∀ tb, s.tables[i]? = some tb → P (f tb).1) : P (s.onTable i f).1 := by
  unfold onTable
  cases h : s.tables[i]? with
  | none => exact hs
  | some tb => exact hf tb h

theorem onUnitId_induction {i : Nat} {f : UnitId → Session × Answer} (hs : P s)
    (hf : ∀ u, s.units[i]? = some u → P (f u.unit.id).1) : P (s.onUnitId i f).1 := by
  unfold onUnitId
  cases h : s.units[i]? with
  | none => exact hs
  | some u => exact hf u h

end Lookups

/-! ### Steps -/

theorem change_attach (s : Session) (sys : System) (i : Nat) (choice : ReceiverChoice) :
    Change s ⟨sys, .attach i choice⟩ (s.attach sys i choice).1 := by
  refine onCompiler_induction .none fun h hi => ?_
  by_cases hreceiver : s.hasReceiver choice = true
  case neg =>
    simp only [hreceiver]
    exact .none
  simp only [hreceiver]
  rcases s.linkage.attach_cases sys h.compiler choice.receiver s.tables with
    ⟨-, hattach⟩ | ⟨b, hb, -, ⟨e, -, hattach⟩ | ⟨r, hregion, hattach⟩⟩
  · rw [hattach]
    exact .other _ s.errorCode
  · rw [hattach]
    exact .other _ s.errorCode
  · simp only [hattach]
    exact .attach r _ _ _ ⟨h, b, hi, hb, hregion⟩ (choice.learns_publish _ _ _ _)

theorem change_commit (s : Session) (sys : System) (requests : List Request) (p : Platform)
    (settings : Settings) :
    Change s ⟨sys, .commit requests p settings⟩ (s.commit sys requests p settings).1 := by
  unfold Session.commit
  cases hstubs : requests.mapM (Stub.ofRequest p settings.saver) with
  | error e => exact .none
  | ok stubs =>
    cases hregion : Region.ofStubs sys settings stubs with
    | error e =>
      simp only [hregion]
      exact .none
    | ok r =>
      simp only [hregion]
      exact .commit r ⟨stubs, hstubs, hregion⟩

theorem change_describeUnit (s : Session) (t : Turn) (i : Nat) :
    Change s t (s.describeUnit i).1 := by
  unfold Session.describeUnit
  cases s.units[i]? with
  | none => exact .none
  | some u =>
    simp only
    split
    · exact .none
    · exact onRegion_induction .none fun _ _ => .none

theorem change_release (s : Session) (t : Turn) (i : Nat) : Change s t (s.release i).1 := by
  unfold Session.release
  cases hi : s.units[i]? with
  | none => exact .none
  | some u =>
    cases hu : u.released with
    | true =>
      simp only [hu, if_true]
      exact .none
    | false =>
      simp only [hu]
      exact .release i u hi hu

theorem change_share (s : Session) (t : Turn) (id : RegionId) : Change s t (s.share id).1 := by
  unfold Session.share
  by_cases hlive : s.arena.alive id = true
  · simp only [hlive]
    exact .share id hlive
  · simp only [hlive]
    exact .none

theorem change_hold (s : Session) (t : Turn) (id : RegionId) : Change s t (s.hold id).1 := by
  unfold Session.hold
  split
  · exact .none
  · exact s.change_share t id

theorem change_drop (s : Session) (t : Turn) (id : RegionId) : Change s t (s.drop id).1 := by
  unfold Session.drop
  by_cases hheld : id ∈ s.held
  · simp only [hheld, List.elem_eq_mem]
    exact .drop id hheld
  · simp only [hheld, List.elem_eq_mem]
    exact .none

theorem change_register (s : Session) (t : Turn) (id : RegionId) (choice : ReceiverChoice) :
    Change s t (s.register id choice).1 := by
  refine onRegion_induction .none fun r _ => ?_
  by_cases hreceiver : s.hasReceiver choice = true
  · simp only [hreceiver]
    exact .tables _ (choice.learns_publish _ _ _ _)
  · simp only [hreceiver]
    exact .none

theorem change_bind (s : Session) (t : Turn) (i : Nat) (id : RegionId) (name descriptor : String)
    (l : Location) : Change s t (s.bind i id name descriptor l).1 := by
  refine onRegion_induction .none fun r _ => ?_
  refine onLocation_induction .none fun address => ?_
  refine onTable_induction .none fun tb hi => ?_
  exact .tables _ (learns_set hi fun b => Table.mem_bind)

theorem change_lookup (s : Session) (t : Turn) (i : Nat) (name : String) (keep : Bool) :
    Change s t (s.lookup i name keep).1 := by
  refine onTable_induction .none fun tb hi => ?_
  cases hlookup : tb.lookup? s.arena name with
  | none => exact .none
  | some g =>
    cases keep with
    | false => exact .none
    | true => exact .keep g (.inl ⟨tb, List.mem_of_getElem? hi, name, hlookup⟩)

theorem guard?_eq_some_iff {i : Nat} {g : Guard} :
    s.guard? i = some g ↔ s.guards[i]? = some (some g) := by
  simp [guard?, Option.join_eq_some_iff]

theorem change_cloneGuard (s : Session) (t : Turn) (i : Nat) :
    Change s t (s.cloneGuard i).1 := by
  unfold Session.cloneGuard
  cases hg : s.guard? i with
  | none => exact .blank
  | some g => exact .keep g (.inr (List.mem_of_getElem? (guard?_eq_some_iff.1 hg)))

theorem change_dropGuard (s : Session) (t : Turn) (i : Nat) : Change s t (s.dropGuard i).1 := by
  unfold Session.dropGuard
  cases hg : s.guard? i with
  | none => exact .none
  | some g => exact .dropGuard i g (guard?_eq_some_iff.1 hg)

/-- **Every turn changes a session in one of these ways.** -/
theorem change_turn (s : Session) (t : Turn) : Change s t (s.turn t) := by
  obtain ⟨sys, step⟩ := t
  cases step with
  | newCompiler kind p settings => exact .other _ s.errorCode
  | settings i => exact onCompiler_induction .none fun _ _ => .none
  | callShape i signature => exact onCompiler_induction .none fun _ _ => .none
  | compile i request => exact onCompiler_induction .none fun h _ => .other _ s.errorCode
  | pending i => exact onCompiler_induction .none fun _ _ => .none
  | attach i receiver => exact s.change_attach sys i receiver
  | unit i => exact s.change_describeUnit _ i
  | release i => exact s.change_release _ i
  | commit requests p settings => exact s.change_commit sys requests p settings
  | share id => exact s.change_share _ id
  | hold id => exact s.change_hold _ id
  | drop id => exact s.change_drop _ id
  | alive id => exact .none
  | region id => exact onRegion_induction .none fun _ _ => .none
  | code id name => exact onRegion_induction .none fun _ _ => .none
  | «at» id location =>
    exact onRegion_induction .none fun _ _ => onLocation_induction .none fun _ => .none
  | register id receiver => exact s.change_register _ id receiver
  | newTable =>
    refine .tables _ fun b => ?_
    rintro ⟨tb, htb, hb⟩
    rcases List.mem_append.1 htb with htb | htb
    · exact .inl ⟨tb, htb, hb⟩
    · rw [List.mem_singleton.1 htb] at hb
      cases hb
  | bind i id name descriptor location => exact s.change_bind _ i id name descriptor location
  | lookup i name keep => exact s.change_lookup _ i name keep
  | unbind i name =>
    refine onTable_induction .none fun tb hi => ?_
    exact .tables _ (learns_set hi fun b hb => .inl (Table.mem_unbind.1 hb).1)
  | purge i =>
    refine onTable_induction .none fun tb hi => ?_
    exact .tables _ (learns_set hi fun b hb => .inl (Table.mem_sweep.1 hb).1)
  | tableSize i => exact onTable_induction .none fun _ _ => .none
  | guard i => exact .none
  | cloneGuard i => exact s.change_cloneGuard _ i
  | dropGuard i => exact s.change_dropGuard _ i
  | track choice i region =>
    refine onRegion_induction .none fun r hr => ?_
    refine onUnitId_induction .none fun u hu => ?_
    exact .track choice i region u rfl hu (Arena.alive_of_get? hr)
  | untrack choice i =>
    exact onUnitId_induction .none fun u hu => .untrack choice i u rfl hu
  | tracked choice i => exact onUnitId_induction .none fun _ _ => .none
  | find choice location => exact onLocation_induction .none fun _ => .none
  | index choice => exact .none
  | prune choice => exact .prune choice
  | setErrorCode code => exact .other s.compilers _
  | errorCode => exact .none
  | saveErrorCode systemCode => exact .other s.compilers _
  | threadErrorCode systemCode => exact .none

end Session

end Trampoline
