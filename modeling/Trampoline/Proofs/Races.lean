import Mathlib.Data.List.Forall2
import Mathlib.Data.List.Induction
import Trampoline.Dispatch.Race
import Trampoline.Lists
import Trampoline.Proofs.Attachment
import Trampoline.Proofs.Image

/-!
# Winners of races

* `Region.Built.sensible`, `Region.Built.addressOf?`: the methods of a region that was laid out;
* `Registry.Matches.resolve?_step`: names that resolve while nothing is bound or unbound;
* `Race.run_alone`: a publisher that is alone does what `Receiver.publish` does;
* `Race.Steady`: what every move keeps; `Race.Sound`: what every move keeps while the regions live;
* `Race.Settled`, `Race.settles`: how a race ends, whatever the order of its moves.
-/

namespace Trampoline

/-! ### The methods of a region -/

namespace Region.Built

variable {r : Region} {m : Method}

theorem nodup (h : r.Built) : (r.entries.map Entry.name).Nodup := by
  obtain ⟨sys, settings, stubs, -, hr⟩ := h
  obtain ⟨-, -, -, hnodup, -⟩ := image_of_ofStubs hr
  exact hnodup

/-- Every method of a living region is sensible, if only it has a name. -/
theorem sensible (h : r.Built) {a : Arena} {id : RegionId} (hr : a.get? id = some r)
    (hm : m ∈ r.methods) (hname : m.name ≠ "") : m.Sensible a id := by
  obtain ⟨sys, settings, stubs, hstubs, hregion⟩ := h
  obtain ⟨hbase, limit, hlimit, hholds⟩ := ofStubs_holds hregion
  obtain ⟨e, he, rfl⟩ := List.mem_map.1 hm
  obtain ⟨s, hs, hstub⟩ := exists_of_forall₂_left hholds.flip he
  obtain ⟨p, saver, request, hrequest⟩ := hstubs s hs
  exact sensible_of_holds hrequest hstub hlimit hbase hr hname

/-- The address of a method is that of the stub under its name. -/
theorem addressOf? (h : r.Built) (hm : m ∈ r.methods) : r.addressOf? m.name = some m.address := by
  obtain ⟨e, he, rfl⟩ := List.mem_map.1 hm
  rw [Region.addressOf?, entry?_of_mem h.nodup he, Option.map_some]

end Region.Built

/-! ### Names that resolve -/

namespace Registry

variable {s : Registry} {d : Directory}

/-- No event moves a region or brings it back to life. -/
theorem precedes_step (s : Registry) (e : Event) : s.arena.Precedes (s.step e).arena := by
  cases e with
  | add r => exact s.arena.precedes_add r
  | acquire region => exact s.arena.precedes_acquire region
  | release region => exact s.arena.precedes_release region
  | bind | unbind | purge => exact .refl s.arena
  | lookup name =>
    cases hlookup : s.table.lookup? s.arena name with
    | some g =>
      simp only [step, hlookup]
      exact s.arena.precedes_acquire g.region
    | none =>
      simp only [step, hlookup]
      exact .refl s.arena

theorem Matches.resolve?_eq_some_iff (h : Matches s d) {name : String} {g : Guard} :
    s.resolve? name = some g ↔ ∃ b r, d name = some b ∧ s.arena.get? b.region = some r ∧
      g = ⟨b.method, b.region, b.method.address - r.base⟩ := by
  obtain ⟨a, t⟩ := s
  exact h.lookup?_eq_some_iff

/-- While nothing is bound or unbound, a name resolves as long as its region lives. -/
theorem Matches.resolve?_step (h : Matches s d) {e : Event} (he : e.rebinds = false) {name : String}
    {g : Guard} : (s.step e).resolve? name = some g ↔
      s.resolve? name = some g ∧ (s.step e).arena.alive g.region = true := by
  have hd : d.step s e = d := by cases e <;> first | rfl | cases he
  have hafter : Matches (s.step e) d := hd ▸ h.step e
  have hp := s.precedes_step e
  rw [hafter.resolve?_eq_some_iff, h.resolve?_eq_some_iff]
  constructor
  · rintro ⟨b, r, hb, hr, rfl⟩
    obtain ⟨r', hr', -⟩ := h.inside hb
    cases (hp _ r' hr').1.symm.trans (Arena.region?_of_get? hr)
    have hlive := (hp _ r hr').2 (Arena.alive_of_get? hr)
    exact ⟨⟨b, r, hb, (Arena.get?_of_alive hlive).trans hr', rfl⟩, Arena.alive_of_get? hr⟩
  · rintro ⟨⟨b, r, hb, hr, rfl⟩, hlive⟩
    exact ⟨b, r, hb, (Arena.get?_of_alive hlive).trans (hp _ r (Arena.region?_of_get? hr)).1, rfl⟩

/-- A table binds nothing without a name. -/
theorem mem_step {e : Event} {b : Binding} (hb : b ∈ (s.step e).table.bindings) :
    b ∈ s.table.bindings ∨ b.method.name ≠ "" := by
  cases e with
  | add | acquire | release => exact .inl hb
  | bind m region => exact (Table.mem_bind hb).imp_right Method.Sensible.name
  | unbind name => exact .inl (Table.mem_unbind.1 hb).1
  | purge => exact .inl (Table.mem_sweep.1 hb).1
  | lookup name =>
    simp only [step] at hb
    split at hb <;> exact .inl hb

theorem name_ne_of_mem (events : List Event) {b : Binding}
    (hb : b ∈ (history events).1.table.bindings) : b.method.name ≠ "" := by
  induction events using List.reverseRecOn with
  | nil => cases hb
  | append_singleton events e ih =>
    simp only [history, List.foldl_append, List.foldl_cons, List.foldl_nil] at hb ih
    rcases mem_step hb with hb | hname
    · exact ih hb
    · exact hname

/-- The empty name never resolves. -/
theorem resolve?_empty (events : List Event) : (history events).1.resolve? "" = none := by
  refine Option.eq_none_iff_forall_ne_some.2 fun g hg => ?_
  obtain ⟨b, hfind, -⟩ := Option.bind_eq_some_iff.1 hg
  have hname : b.method.name = "" := by simpa using List.find?_some hfind
  exact name_ne_of_mem events (List.mem_of_find?_eq_some hfind) hname

end Registry

namespace Race

variable {start : Registry} {race : Race} {regions : List (RegionId × Region)} {p : Publisher} {k : Nat}
  {m : Method}

/-! ### Moves -/

/-- An offer binds one method and records the answer, or nothing is left to offer. -/
theorem offer_cases (race : Race) (k : Nat) : race.offer k = race ∨
    ∃ p m, race.publishers[k]? = some p ∧ p.region.methods[p.offered]? = some m ∧
      race.offer k = ⟨race.registry.step (.bind m p.id), race.publishers.set k
        (p.record m (race.registry.table.bind race.registry.arena m p.id).2)⟩ := by
  unfold offer
  cases hp : race.publishers[k]? with
  | none => exact .inl rfl
  | some p =>
    cases hm : p.region.methods[p.offered]? with
    | none => exact .inl (by simp only [hm])
    | some m => exact .inr ⟨p, m, rfl, hm, by simp only [hm]⟩

/-- A publisher that is alone publishes its region as if nothing could come between. -/
theorem run_alone (s : Registry) (id : RegionId) (r : Region) {n : Nat} (hn : n ≤ r.methods.length) :
    (Race.start s [(id, r)]).run (List.replicate n (.offer 0)) =
      ⟨⟨s.arena, (Receiver.table.publish s.arena id (r.methods.take n) s.table).1⟩,
        [⟨id, r, n, (Receiver.table.publish s.arena id (r.methods.take n) s.table).2⟩]⟩ := by
  induction n with
  | zero => rfl
  | succ n ih =>
    have hm : r.methods[n]? = some r.methods[n] := List.getElem?_eq_getElem hn
    have htake : r.methods.take (n + 1) = r.methods.take n ++ [r.methods[n]] := by
      rw [List.take_add_one, hm, Option.toList_some]
    rw [List.replicate_succ', run_append_singleton, ih (Nat.le_of_succ_le hn), htake,
      Receiver.publish_append_singleton]
    simp [move, offer, hm, Publisher.record, Registry.step, Receiver.table]

/-- One more method is accounted for. -/
theorem perm_record (report : Publication) (m : Method) (answer : Except Rejection Unit) :
    ((report.record m answer).bound ++ (report.record m answer).rejected.map Prod.fst).Perm
      (report.bound ++ report.rejected.map Prod.fst ++ [m]) := by
  cases answer with
  | ok =>
    simp only [Publication.record, List.append_assoc]
    exact List.perm_append_comm.append_left _
  | error e => simp [Publication.record]

/-- What every move keeps: the publishers and their regions, the places of regions, and an account of all
methods that were offered. -/
structure Steady (start : Registry) (regions : List (RegionId × Region)) (race : Race) : Prop where
  same : race.publishers.map (fun p => (p.id, p.region)) = regions
  precedes : start.arena.Precedes race.registry.arena
  accounted : ∀ p ∈ race.publishers,
    (p.report.bound ++ p.report.rejected.map Prod.fst).Perm (p.region.methods.take p.offered)

theorem steady_start (start : Registry) (regions : List (RegionId × Region)) :
    Steady start regions (Race.start start regions) where
  same := by simp [Race.start, Function.comp_def]
  precedes := .refl _
  accounted p hp := by
    obtain ⟨⟨id, r⟩, -, rfl⟩ := List.mem_map.1 hp
    exact .refl _

theorem Steady.move (h : Steady start regions race) (move : Move) :
    Steady start regions (race.move move) := by
  cases move with
  | meanwhile e he => exact ⟨h.same, h.precedes.trans (race.registry.precedes_step e), h.accounted⟩
  | offer k =>
    rcases race.offer_cases k with heq | ⟨p, m, hp, hm, heq⟩
    · rw [Race.move, heq]
      exact h
    · rw [Race.move, heq]
      have hsame : ∀ answer, (race.publishers.set k (p.record m answer)).map
          (fun p => (p.id, p.region)) = race.publishers.map fun p => (p.id, p.region) :=
        fun answer => map_set_of_eq hp rfl
      refine ⟨(hsame _).trans h.same, h.precedes.trans (race.registry.precedes_step _), fun q hq => ?_⟩
      rcases List.mem_or_eq_of_mem_set hq with hq | rfl
      · exact h.accounted q hq
      · have hbefore := h.accounted p (List.mem_of_getElem? hp)
        have hoffered : (p.region.methods.take p.offered) ++ [m] =
            p.region.methods.take (p.offered + 1) := by
          rw [List.take_add_one, hm, Option.toList_some]
        exact (perm_record _ m _).trans (hoffered ▸ hbefore.append_right [m])

theorem steady_run (start : Registry) (regions : List (RegionId × Region)) (moves : List Move) :
    Steady start regions ((Race.start start regions).run moves) := by
  induction moves using List.reverseRecOn with
  | nil => exact steady_start start regions
  | append_singleton moves move ih =>
    rw [run_append_singleton]
    exact ih.move move

/-! ### Winners -/

/-- Somebody has won the name. -/
def Won (race : Race) (name : String) : Prop := ∃ k, race.Wins k name

/-- What every move keeps while the regions of the publishers live. -/
structure Sound (start : Registry) (race : Race) : Prop where
  agrees : ∃ d, Registry.Matches race.registry d
  /-- What was bound resolves. -/
  taken : ∀ p ∈ race.publishers, ∀ m ∈ p.report.bound,
    ∃ g, race.registry.resolve? m.name = some g ∧ g.method = m ∧ g.region = p.id
  named : ∀ name, race.Won name → name ≠ ""
  unique : ∀ k l name, race.Wins k name → race.Wins l name → k = l
  origin : ∀ name g, race.registry.resolve? name = some g →
    start.resolve? name = some g ∨ race.Won name
  /-- A name that resolved at the start does so while its region lives, and nobody wins it. -/
  kept : ∀ name g, start.resolve? name = some g → race.registry.arena.alive g.region = true →
    race.registry.resolve? name = some g ∧ ¬ race.Won name
  refused : ∀ p ∈ race.publishers, ∀ m e, (m, e) ∈ p.report.rejected → m.name ≠ "" →
    e = .duplicate m.name ∧ ((start.resolve? m.name).isSome = true ∨ race.Won m.name)

theorem not_wins_start (start : Registry) (regions : List (RegionId × Region)) (k : Nat)
    (name : String) : ¬ (Race.start start regions).Wins k name := by
  rintro ⟨p, hp, hname⟩
  obtain ⟨⟨id, r⟩, -, rfl⟩ := List.mem_map.1 (List.mem_of_getElem? hp)
  cases hname

theorem sound_start {d : Directory} (h : Registry.Matches start d)
    (regions : List (RegionId × Region)) : Sound start (Race.start start regions) where
  agrees := ⟨d, h⟩
  taken p hp m hm := by
    obtain ⟨⟨id, r⟩, -, rfl⟩ := List.mem_map.1 hp
    cases hm
  named name := fun ⟨k, hk⟩ => absurd hk (not_wins_start start regions k name)
  unique k l name hk := absurd hk (not_wins_start start regions k name)
  origin name g hg := .inl hg
  kept name g hg _ := ⟨hg, fun ⟨k, hk⟩ => not_wins_start start regions k name hk⟩
  refused p hp m e he := by
    obtain ⟨⟨id, r⟩, -, rfl⟩ := List.mem_map.1 hp
    cases he

namespace Sound

/-- What somebody has won resolves. -/
theorem resolves (h : Sound start race) {name : String} (hwon : race.Won name) :
    ∃ g, race.registry.resolve? name = some g := by
  obtain ⟨k, p, hp, hname⟩ := hwon
  obtain ⟨m, hm, rfl⟩ := List.mem_map.1 hname
  obtain ⟨g, hg, -⟩ := h.taken p (List.mem_of_getElem? hp) m hm
  exact ⟨g, hg⟩

/-- Nothing is bound or unbound. -/
theorem meanwhile (h : Sound start race) (hp : start.arena.Precedes race.registry.arena)
    {e : Registry.Event} (he : e.rebinds = false)
    (halive : ∀ p ∈ race.publishers, (race.registry.step e).arena.alive p.id = true) :
    Sound start (race.move (.meanwhile e he)) := by
  obtain ⟨d, hd⟩ := h.agrees
  refine ⟨⟨_, hd.step e⟩, fun p hp m hm => ?_, h.named, h.unique, fun name g hg => ?_,
    fun name g hg hlive => ?_, h.refused⟩
  · obtain ⟨g, hg, hmethod, hregion⟩ := h.taken p hp m hm
    exact ⟨g, (hd.resolve?_step he).2 ⟨hg, hregion ▸ halive p hp⟩, hmethod, hregion⟩
  · exact h.origin name g ((hd.resolve?_step he).1 hg).1
  · obtain ⟨r, hr⟩ := Option.isSome_iff_exists.1 (Table.alive_of_lookup? hg)
    have hbefore := (hp _ r (Arena.region?_of_get? hr)).1
    obtain ⟨hresolves, hwon⟩ :=
      h.kept name g hg ((race.registry.precedes_step e _ r hbefore).2 hlive)
    exact ⟨(hd.resolve?_step he).2 ⟨hresolves, hlive⟩, hwon⟩

end Sound

/-- Who wins when one publisher is replaced. -/
theorem wins_set {s : Registry} {p' : Publisher} (hp : race.publishers[k]? = some p) {l : Nat}
    {name : String} : (Race.mk s (race.publishers.set k p')).Wins l name ↔
      l = k ∧ name ∈ p'.report.bound.map Method.name ∨ l ≠ k ∧ race.Wins l name := by
  obtain ⟨hk, -⟩ := List.getElem?_eq_some_iff.1 hp
  by_cases heq : l = k
  · subst heq
    simp [Wins, hk]
  · simp [Wins, heq, List.getElem?_set_ne (Ne.symm heq)]

/-- A publisher whose offer is taken has won the name as well. -/
theorem wins_taken {s : Registry} (hp : race.publishers[k]? = some p) {l : Nat} {name : String} :
    (Race.mk s (race.publishers.set k (p.record m (.ok ())))).Wins l name ↔
      race.Wins l name ∨ l = k ∧ name = m.name := by
  rw [wins_set hp]
  by_cases heq : l = k
  · subst heq
    simp [Wins, hp, Publisher.record, Publication.record]
  · simp [heq]

/-- An offer that is refused changes no winner. -/
theorem wins_refused {s : Registry} {e : Rejection} (hp : race.publishers[k]? = some p) {l : Nat}
    {name : String} : (Race.mk s (race.publishers.set k (p.record m (.error e)))).Wins l name ↔
      race.Wins l name := by
  rw [wins_set hp]
  by_cases heq : l = k
  · subst heq
    simp [Wins, hp, Publisher.record, Publication.record]
  · simp [heq]

/-- Reports grow by the method that was offered. -/
theorem mem_record {answer : Except Rejection Unit} {q : Publisher} (hp : race.publishers[k]? = some p)
    (hq : q ∈ race.publishers.set k (p.record m answer)) :
    ∃ q' ∈ race.publishers, q'.id = q.id ∧
      (∀ m' ∈ q.report.bound, m' ∈ q'.report.bound ∨ answer = .ok () ∧ m' = m ∧ q.id = p.id) ∧
      ∀ m' e, (m', e) ∈ q.report.rejected → (m', e) ∈ q'.report.rejected ∨ answer = .error e ∧ m' = m := by
  rcases List.mem_or_eq_of_mem_set hq with hq | rfl
  · exact ⟨q, hq, rfl, fun m' => .inl, fun m' e => .inl⟩
  · refine ⟨p, List.mem_of_getElem? hp, rfl, fun m' hm' => ?_, fun m' e he => ?_⟩
    · rcases answer with e | ⟨⟩
      · exact .inl hm'
      · rcases List.mem_append.1 hm' with hm' | hm'
        · exact .inl hm'
        · exact .inr ⟨rfl, List.mem_singleton.1 hm', rfl⟩
    · rcases answer with e' | ⟨⟩
      · rcases List.mem_append.1 he with he | he
        · exact .inl he
        · obtain ⟨rfl, rfl⟩ := Prod.mk.inj (List.mem_singleton.1 he)
          exact .inr ⟨rfl, rfl⟩
      · exact .inl he

namespace Sound

/-- A method is taken: its name resolved to nothing, so nobody had won it. -/
theorem taken_offer (h : Sound start race) (hp : race.publishers[k]? = some p)
    (hm : m.name ≠ "" → m.Sensible race.registry.arena p.id)
    (htakes : race.registry.table.takes race.registry.arena m = true) :
    Sound start ⟨race.registry.step (.bind m p.id), race.publishers.set k (p.record m
      (race.registry.table.bind race.registry.arena m p.id).2)⟩ := by
  obtain ⟨d, hd⟩ := h.agrees
  obtain ⟨hanswer, hfound, hother⟩ := Registry.Matches.offer_taken hd hm htakes
  obtain ⟨hname, hnone⟩ : m.name ≠ "" ∧ race.registry.resolve? m.name = none :=
    Table.takes_iff.1 htakes
  have hne : ∀ {name g}, race.registry.resolve? name = some g → name ≠ m.name := by
    rintro name g hg rfl
    cases hnone.symm.trans hg
  have hfree : ∀ l, ¬ race.Wins l m.name := fun l hl => by
    obtain ⟨g, hg⟩ := h.resolves ⟨l, hl⟩
    exact hne hg rfl
  have hmono : ∀ {name}, race.Won name → Won ⟨race.registry.step (.bind m p.id),
      race.publishers.set k (p.record m (.ok ()))⟩ name :=
    fun ⟨l, hl⟩ => ⟨l, (wins_taken hp).2 (.inl hl)⟩
  rw [hanswer]
  refine ⟨⟨_, hd.step (.bind m p.id)⟩, ?taken, ?named, ?unique, ?origin, ?kept, ?refused⟩
  case taken =>
    intro q hq m' hm'
    obtain ⟨q', hq', hid, hbound, -⟩ := mem_record hp hq
    rcases hbound m' hm' with hm' | ⟨-, rfl, hid⟩
    · obtain ⟨g, hg, hmethod, hregion⟩ := h.taken q' hq' m' hm'
      exact ⟨g, (hother _ (hne hg)).trans hg, hmethod, hregion.trans hid⟩
    · rw [hid]
      exact hfound
  case named =>
    rintro name ⟨l, hl⟩
    rcases (wins_taken hp).1 hl with hwins | ⟨-, rfl⟩
    · exact h.named name ⟨l, hwins⟩
    · exact hname
  case unique =>
    intro l l' name hl hl'
    rcases (wins_taken hp).1 hl with hwins | ⟨rfl, rfl⟩ <;>
      rcases (wins_taken hp).1 hl' with hwins' | ⟨rfl, heq⟩
    · exact h.unique l l' name hwins hwins'
    · exact absurd (heq ▸ hwins) (hfree l)
    · exact absurd hwins' (hfree l')
    · rfl
  case origin =>
    intro name g hg
    by_cases heq : name = m.name
    · exact .inr ⟨k, (wins_taken hp).2 (.inr ⟨rfl, heq⟩)⟩
    · exact (h.origin name g ((hother name heq).symm.trans hg)).imp_right hmono
  case kept =>
    intro name g hg hlive
    obtain ⟨hresolves, hwon⟩ := h.kept name g hg hlive
    refine ⟨(hother name (hne hresolves)).trans hresolves, fun ⟨l, hl⟩ => ?_⟩
    rcases (wins_taken hp).1 hl with hl | ⟨-, heq⟩
    · exact hwon ⟨l, hl⟩
    · exact hne hresolves heq
  case refused =>
    intro q hq m' e he hname
    obtain ⟨q', hq', -, -, hrejected⟩ := mem_record hp hq
    rcases hrejected m' e he with he | ⟨heq, -⟩
    · obtain ⟨hreason, hcause⟩ := h.refused q' hq' m' e he hname
      exact ⟨hreason, hcause.imp_right hmono⟩
    · cases heq

/-- A method is refused: it has no name, or its name resolves. -/
theorem refused_offer (h : Sound start race) (hp : race.publishers[k]? = some p)
    (hm : m.name ≠ "" → m.Sensible race.registry.arena p.id)
    (hrefused : race.registry.table.takes race.registry.arena m = false) :
    Sound start ⟨race.registry.step (.bind m p.id), race.publishers.set k (p.record m
      (race.registry.table.bind race.registry.arena m p.id).2)⟩ := by
  obtain ⟨d, hd⟩ := h.agrees
  obtain ⟨hanswer, hsame⟩ := Registry.Matches.offer_refused hd hm hrefused
  have hwon : ∀ {name}, Won ⟨race.registry.step (.bind m p.id),
      race.publishers.set k (p.record m (.error m.rejection))⟩ name ↔ race.Won name :=
    exists_congr fun l => wins_refused hp
  rw [hanswer]
  refine ⟨⟨_, hd.step (.bind m p.id)⟩, ?taken, fun name hafter => h.named name (hwon.1 hafter),
    fun l l' name hl hl' => h.unique l l' name ((wins_refused hp).1 hl) ((wins_refused hp).1 hl'),
    fun name g hg => (h.origin name g ((hsame name).symm.trans hg)).imp_right hwon.2, ?kept, ?refused⟩
  case taken =>
    intro q hq m' hm'
    obtain ⟨q', hq', hid, hbound, -⟩ := mem_record hp hq
    rcases hbound m' hm' with hm' | ⟨heq, -⟩
    · obtain ⟨g, hg, hmethod, hregion⟩ := h.taken q' hq' m' hm'
      exact ⟨g, (hsame _).trans hg, hmethod, hregion.trans hid⟩
    · cases heq
  case kept =>
    intro name g hg hlive
    obtain ⟨hresolves, hnot⟩ := h.kept name g hg hlive
    exact ⟨(hsame name).trans hresolves, fun hafter => hnot (hwon.1 hafter)⟩
  case refused =>
    intro q hq m' e he hname
    obtain ⟨q', hq', -, -, hrejected⟩ := mem_record hp hq
    rcases hrejected m' e he with he | ⟨heq, rfl⟩
    · obtain ⟨hreason, hcause⟩ := h.refused q' hq' m' e he hname
      exact ⟨hreason, hcause.imp_right hwon.2⟩
    · -- The method that was offered has a name, so the name resolves, and somebody bound it.
      cases heq
      refine ⟨if_neg hname, ?_⟩
      cases hlookup : race.registry.resolve? m'.name with
      | none =>
        rw [Table.takes_iff.2 ⟨hname, hlookup⟩] at hrefused
        cases hrefused
      | some g =>
        rcases h.origin _ g hlookup with hstart | hbound
        · exact .inl (by rw [hstart]; rfl)
        · exact .inr (hwon.2 hbound)

/-- **An offer keeps a race sound** if the method makes sense. -/
theorem offer (h : Sound start race)
    (hsensible : ∀ p ∈ race.publishers, ∀ m ∈ p.region.methods, m.name ≠ "" →
      m.Sensible race.registry.arena p.id) (k : Nat) : Sound start (race.offer k) := by
  rcases race.offer_cases k with heq | ⟨p, m, hp, hm, heq⟩
  · rw [heq]
    exact h
  · have hm := hsensible p (List.mem_of_getElem? hp) m (List.mem_of_getElem? hm)
    rw [heq]
    cases htakes : race.registry.table.takes race.registry.arena m with
    | true => exact h.taken_offer hp hm htakes
    | false => exact h.refused_offer hp hm htakes

end Sound

/-! ### Runs -/

/-- The publishers are those that started, and their regions are where they were. -/
theorem Steady.home (h : Steady start regions race)
    (hregions : ∀ e ∈ regions, start.arena.get? e.1 = some e.2) (hp : p ∈ race.publishers) :
    (p.id, p.region) ∈ regions ∧ race.registry.arena.region? p.id = some p.region := by
  have hmem : (p.id, p.region) ∈ regions := h.same ▸ List.mem_map_of_mem hp
  exact ⟨hmem, (h.precedes _ _ (Arena.region?_of_get? (hregions _ hmem))).1⟩

theorem precedes_move (race : Race) (move : Move) :
    race.registry.arena.Precedes (race.move move).registry.arena := by
  cases move with
  | meanwhile e he => exact race.registry.precedes_step e
  | offer k =>
    rw [Race.move]
    rcases race.offer_cases k with heq | ⟨p, m, -, -, heq⟩
    · rw [heq]
      exact .refl _
    · rw [heq]
      exact race.registry.precedes_step _

/-- **A race stays sound while the regions of its publishers live.** -/
theorem sound_run {d : Directory} (hstart : Registry.Matches start d)
    (hregions : ∀ e ∈ regions, start.arena.get? e.1 = some e.2)
    (hbuilt : ∀ e ∈ regions, e.2.Built) (moves : List Move)
    (halive : ∀ e ∈ regions,
      ((Race.start start regions).run moves).registry.arena.alive e.1 = true) :
    Sound start ((Race.start start regions).run moves) := by
  induction moves using List.reverseRecOn with
  | nil => exact sound_start hstart regions
  | append_singleton moves move ih =>
    rw [run_append_singleton] at halive ⊢
    have hsteady := steady_run start regions moves
    generalize (Race.start start regions).run moves = race at hsteady halive ih
    have hbefore : ∀ e ∈ regions, race.registry.arena.alive e.1 = true := by
      intro e he
      have hplace := (hsteady.precedes _ _ (Arena.region?_of_get? (hregions e he))).1
      exact (race.precedes_move move _ _ hplace).2 (halive e he)
    have hsound := ih hbefore
    cases move with
    | meanwhile e he =>
      exact hsound.meanwhile hsteady.precedes he fun p hp => halive _ (hsteady.home hregions hp).1
    | offer k =>
      refine hsound.offer (fun p hp m hm hname => ?_) k
      obtain ⟨hmem, hplace⟩ := hsteady.home hregions hp
      have hhome := (Arena.get?_of_alive (hbefore _ hmem)).trans hplace
      exact (hbuilt _ hmem).sensible hhome hm hname

/-! ### The end -/

/-- How a race ends that started among the bindings of `start`. -/
structure Settled (start : Registry) (regions : List (RegionId × Region)) (race : Race) : Prop where
  same : race.publishers.map (fun p => (p.id, p.region)) = regions
  /-- Each report accounts for every method of the region, once. -/
  accounted : ∀ p ∈ race.publishers,
    (p.report.bound ++ p.report.rejected.map Prod.fst).Perm p.region.methods
  /-- A name that resolved to nothing at the start has one winner, -/
  won : ∀ name, name ≠ "" → start.resolve? name = none → (∃ k, race.Publishes k name) →
    ∃! k, race.Wins k name
  /-- and every other publisher of the name is told so. -/
  lost : ∀ k l name, race.Wins k name → l ≠ k → race.Publishes l name → race.Loses l name
  /-- A name that resolved at the start, and whose region still lives, is lost by all. -/
  kept : ∀ name g, start.resolve? name = some g → race.registry.arena.alive g.region = true →
    race.registry.resolve? name = some g ∧ ∀ k, race.Publishes k name → race.Loses k name
  /-- A name resolves to its winner's region, at that region's own entry. -/
  found : ∀ k name, race.Wins k name → ∃ p g, race.publishers[k]? = some p ∧
    race.registry.resolve? name = some g ∧ g.region = p.id ∧ g.method.name = name ∧
    p.region.addressOf? name = some g.method.address ∧
    g.entryPoint? race.registry.arena = some g.method.address

namespace Sound

variable {name : String}

/-- A publisher that is done has won a name or lost it, and it lost only what resolved at the start or was
won by somebody. -/
theorem wins_or_loses (h : Sound start race) (hsteady : Steady start regions race)
    (hfinished : race.Finished) (hname : name ≠ "") (hk : race.Publishes k name) :
    race.Wins k name ∨
      race.Loses k name ∧ ((start.resolve? name).isSome = true ∨ race.Won name) := by
  obtain ⟨p, hp, hpublished⟩ := hk
  by_cases hbound : name ∈ p.report.bound.map Method.name
  · exact .inl ⟨p, hp, hbound⟩
  · obtain ⟨m, hm, rfl⟩ := List.mem_map.1 hpublished
    have hmem := List.mem_of_getElem? hp
    have haccounted := hsteady.accounted p hmem
    rw [hfinished p hmem, List.take_length] at haccounted
    rcases List.mem_append.1 (haccounted.mem_iff.2 hm) with hm' | hm'
    · exact absurd (List.mem_map_of_mem hm') hbound
    · obtain ⟨⟨m', e⟩, he, rfl⟩ := List.mem_map.1 hm'
      obtain ⟨rfl, hcause⟩ := h.refused p hmem m' e he hname
      exact .inr ⟨⟨p, hp, hbound, m', hm, rfl, he⟩, hcause⟩

/-- A sound race in which nothing is left to offer is settled. -/
theorem settled (h : Sound start race) (hsteady : Steady start regions race)
    (hfinished : race.Finished) (hempty : start.resolve? "" = none)
    (hregions : ∀ e ∈ regions, start.arena.get? e.1 = some e.2)
    (hbuilt : ∀ e ∈ regions, e.2.Built) : Settled start regions race where
  same := hsteady.same
  accounted p hp := by
    have haccounted := hsteady.accounted p hp
    rwa [hfinished p hp, List.take_length] at haccounted
  won name hname hfree := by
    rintro ⟨k, hk⟩
    have hwon : race.Won name := by
      rcases h.wins_or_loses hsteady hfinished hname hk with hwins | ⟨-, hsome | hwon⟩
      · exact ⟨k, hwins⟩
      · rw [hfree] at hsome
        cases hsome
      · exact hwon
    obtain ⟨l, hl⟩ := hwon
    exact ⟨l, hl, fun l' hl' => h.unique l' l name hl' hl⟩
  lost k l name hk hne hl := by
    rcases h.wins_or_loses hsteady hfinished (h.named name ⟨k, hk⟩) hl with hwins | ⟨hloses, -⟩
    · exact absurd (h.unique l k name hwins hk) hne
    · exact hloses
  kept name g hg hlive := by
    obtain ⟨hresolves, hwon⟩ := h.kept name g hg hlive
    have hname : name ≠ "" := by
      rintro rfl
      cases hempty.symm.trans hg
    refine ⟨hresolves, fun k hk => ?_⟩
    rcases h.wins_or_loses hsteady hfinished hname hk with hwins | ⟨hloses, -⟩
    · exact absurd ⟨k, hwins⟩ hwon
    · exact hloses
  found k name hk := by
    obtain ⟨p, hp, hname⟩ := hk
    obtain ⟨m, hm, rfl⟩ := List.mem_map.1 hname
    have hmem := List.mem_of_getElem? hp
    obtain ⟨g, hg, rfl, hregion⟩ := h.taken p hmem m hm
    have hmethod : g.method ∈ p.region.methods :=
      List.mem_of_mem_take ((hsteady.accounted p hmem).mem_iff.1 (List.mem_append_left _ hm))
    obtain ⟨d, hd⟩ := h.agrees
    obtain ⟨b, r, -, -, -, hb, -, -, -, hentry⟩ := hd.refines.lookup _ g hg
    refine ⟨p, g, hp, hg, hregion, rfl, ?_, hb ▸ hentry⟩
    exact (hbuilt _ (hsteady.home hregions hmem).1).addressOf? hmethod

end Sound

/-- **Every race has one winner for each name.** Whatever happened to a table and its regions before: if
publishers offer the methods of living regions to the table, in any order and while other regions come and
go, and their own regions live until all methods were offered, then each name that resolved to nothing goes
to exactly one of its publishers, all reports agree on that, and the name resolves to the winner's region. -/
theorem settles (happening : List Registry.Event) (regions : List (RegionId × Region))
    (moves : List Move) (hbuilt : ∀ e ∈ regions, e.2.Built)
    (hregions : ∀ e ∈ regions, (Registry.history happening).1.arena.get? e.1 = some e.2)
    (halive : ∀ e ∈ regions,
      ((Race.start (Registry.history happening).1 regions).run moves).registry.arena.alive e.1 = true)
    (hfinished : ((Race.start (Registry.history happening).1 regions).run moves).Finished) :
    Settled (Registry.history happening).1 regions
      ((Race.start (Registry.history happening).1 regions).run moves) :=
  (sound_run (Registry.matches_history happening) hregions hbuilt moves halive).settled
    (steady_run _ regions moves) hfinished (Registry.resolve?_empty happening) hregions hbuilt

/-- A region of functions that take and give nothing. -/
def plainRegion (base : Nat) (names : List String) : Region :=
  let stubs := names.filterMap fun name =>
    (Stub.ofRequest .host 0x5000 (Linkage.plainRequest name)).toOption
  (Region.ofStubs (.granting 4096 fun _ => some base) ⟨true, 16, 0x5000, some 64⟩ stubs).toOption.getD
    ⟨⟨base, [], .executable⟩, 64, []⟩

/-- The region of one publisher, -/
def firstRegion : Region := plainRegion 0x10000 ["f", "g"]

/-- and that of another. -/
def secondRegion : Region := plainRegion 0x20000 ["g", "h"]

/-- Two publishers. -/
def twoPublishers : List (RegionId × Region) := [(1, firstRegion), (2, secondRegion)]

/-- A table in which `f` resolves. -/
def boundBefore : List Registry.Event :=
  Linkage.oneBinding ++ [.add firstRegion, .add secondRegion]

/-- The second publisher is faster with `g`. -/
def halfEach : List Move := [.offer 1, .offer 0, .offer 0, .meanwhile .purge rfl, .offer 1]

/-- The race of the two. -/
def raceForG : Race := (Race.start (Registry.history boundBefore).1 twoPublishers).run halfEach

theorem built_plainRegion {base : Nat} {names : List String}
    (h : (plainRegion base names).entries.isEmpty = false) : (plainRegion base names).Built := by
  unfold plainRegion at h ⊢
  simp only at h ⊢
  generalize hstubs : names.filterMap (fun name =>
    (Stub.ofRequest .host 0x5000 (Linkage.plainRequest name)).toOption) = stubs at h ⊢
  cases hr : Region.ofStubs (.granting 4096 fun _ => some base) ⟨true, 16, 0x5000, some 64⟩ stubs with
  | error e =>
    rw [hr] at h
    cases h
  | ok r =>
    refine ⟨_, _, stubs, fun s hs => ?_, hr⟩
    rw [← hstubs] at hs
    obtain ⟨name, -, hname⟩ := List.mem_filterMap.1 hs
    exact ⟨_, _, _, Region.ok_of_toOption hname⟩

theorem built_both {r r' : Region} (h : r.Built) (h' : r'.Built) :
    ∀ e ∈ [((1 : RegionId), r), (2, r')], e.2.Built := by
  simp [h, h']

/-- Two regions that are made last are there. -/
theorem get?_both (events : List Registry.Event) (r r' : Region)
    (h : (Registry.history events).1.arena.slots.length = 1) :
    ∀ e ∈ [((1 : RegionId), r), (2, r')],
      (Registry.history (events ++ [.add r, .add r'])).1.arena.get? e.1 = some e.2 := by
  have harena : (Registry.history (events ++ [.add r, .add r'])).1.arena =
      (((Registry.history events).1.arena.add r).1.add r').1 := by
    simp only [Registry.history, List.foldl_append, List.foldl_cons, List.foldl_nil]
    rfl
  rw [harena]
  generalize (Registry.history events).1.arena = a at h
  have hid : (a.add r).2 = 1 := h
  have hid' : ((a.add r).1.add r').2 = 2 := by simp [Arena.add, h]
  have hlength : (a.add r).1.slots.length = 2 := by simp [Arena.add, h]
  have hfirst : ((a.add r).1.add r').1.get? 1 = some r := by
    have hlt : 1 < (a.add r).1.slots.length := by omega
    rw [Arena.get?_add_of_lt _ _ hlt, ← hid, Arena.get?_add_self]
  have hsecond := (a.add r).1.get?_add_self r'
  rw [hid'] at hsecond
  simp [hfirst, hsecond]

theorem settles_raceForG :
    Settled (Registry.history boundBefore).1 twoPublishers raceForG ∧
      raceForG.publishers.map (fun p => p.report.bound.map Method.name) = [[], ["g", "h"]] ∧
      raceForG.publishers.map (fun p => p.report.rejected.map Prod.snd) =
        [[.duplicate "f", .duplicate "g"], []] := by
  have hfinished : raceForG.Finished := by
    unfold Finished
    decide +kernel
  have hfirst : firstRegion.Built := built_plainRegion (by decide +kernel)
  have hsecond : secondRegion.Built := built_plainRegion (by decide +kernel)
  have hplaces := get?_both Linkage.oneBinding firstRegion secondRegion (by decide +kernel)
  exact ⟨settles boundBefore twoPublishers halfEach (built_both hfirst hsecond) hplaces
    (by decide +kernel) hfinished, by decide +kernel, by decide +kernel⟩

end Race

end Trampoline
