import Mathlib.Logic.Function.Basic
import Mathlib.Tactic.SplitIfs
import Trampoline.Arena.Lemmas
import Trampoline.Dispatch.History

/-!
# Dispatch tables and their directories

A table drops the bindings of dead regions now and then, and a directory never does. What can be seen
of a table is the same in both.

* `Method.defect?_eq_none_iff`: nothing is wrong with a sensible method, and with no other;
* `Registry.Matches`: the relation between a table and its directory, which every event preserves;
* `Matches.lookup?_eq_some_iff`: a look-up finds what the directory has, if its region lives;
* `Registry.Refines`, `refines_history`: a table answers as its directory and the living regions say.
-/

namespace Trampoline

/-! ### What is wrong with a method -/

theorem isDescriptor_iff {text : String} :
    isDescriptor text = true ↔ text.toList.head? = some '(' ∧ ')' ∈ text.toList ∧
      text.toList.getLast? ≠ some ')' := by
  simp [isDescriptor, and_assoc]

theorem Method.defect?_eq_none_iff {m : Method} {a : Arena} {region : RegionId} :
    m.defect? a region = none ↔ m.Sensible a region := by
  have hinside : (a.get? region).any (·.contains m.address) = true ↔
      ∃ r, a.get? region = some r ∧ r.contains m.address = true := by
    simp [Option.any_eq_true]
  unfold defect?
  constructor
  · intro h
    split_ifs at h with hname hdescriptor haddress
    rw [Bool.not_eq_true', Bool.not_eq_false, isDescriptor_iff] at hdescriptor
    rw [not_or, Bool.not_eq_true', Bool.not_eq_false, hinside] at haddress
    obtain ⟨hopens, hcloses, hresult⟩ := hdescriptor
    exact ⟨hname, hopens, hcloses, hresult, haddress.1, haddress.2⟩
  · rintro ⟨hname, hopens, hcloses, hresult, haddress, hin⟩
    have hdescriptor := isDescriptor_iff.2 ⟨hopens, hcloses, hresult⟩
    rw [if_neg hname, if_neg (by simp [hdescriptor]), if_neg (by simp [haddress, hinside.2 hin])]

namespace Table

variable {a : Arena} {t : Table} {m : Method} {region : RegionId}

/-- What an offer can come to. -/
theorem bind_cases (a : Arena) (t : Table) (m : Method) (region : RegionId) :
    (∃ reason, ¬ m.Sensible a region ∧ t.bind a m region = (t, .error (.malformed m.name reason))) ∨
    (m.Sensible a region ∧ ((t.sweep a).find? m.name).isSome = true ∧
      t.bind a m region = (t.sweep a, .error (.duplicate m.name))) ∨
    (m.Sensible a region ∧ (t.sweep a).find? m.name = none ∧
      t.bind a m region = (⟨(t.sweep a).bindings ++ [⟨m, region⟩]⟩, .ok ())) := by
  unfold bind
  cases hdefect : m.defect? a region with
  | some reason =>
    refine .inl ⟨reason, fun h => ?_, rfl⟩
    rw [Method.defect?_eq_none_iff.2 h] at hdefect
    cases hdefect
  | none =>
    have hsensible := Method.defect?_eq_none_iff.1 hdefect
    cases hfind : (t.sweep a).find? m.name with
    | some b => exact .inr (.inl ⟨hsensible, rfl, by simp [hfind]⟩)
    | none => exact .inr (.inr ⟨hsensible, rfl, by simp [hfind]⟩)

theorem mem_sweep {b : Binding} :
    b ∈ (t.sweep a).bindings ↔ b ∈ t.bindings ∧ a.alive b.region = true :=
  List.mem_filter

theorem mem_unbind {b : Binding} {name : String} :
    b ∈ (t.unbind name).1.bindings ↔ b ∈ t.bindings ∧ b.method.name ≠ name := by
  simp [unbind]

/-- What a table finds lives. -/
theorem alive_of_lookup? {name : String} {g : Guard} (h : t.lookup? a name = some g) :
    a.alive g.region = true := by
  obtain ⟨b, -, hb⟩ := Option.bind_eq_some_iff.1 h
  obtain ⟨r, hr, rfl⟩ := Option.map_eq_some_iff.1 hb
  exact Arena.alive_of_get? hr

/-- A table takes sensible methods only. -/
theorem mem_bind {b : Binding} (hb : b ∈ (t.bind a m region).1.bindings) :
    b ∈ t.bindings ∨ b.method.Sensible a b.region := by
  rcases t.bind_cases a m region with ⟨reason, -, h⟩ | ⟨-, -, h⟩ | ⟨hm, -, h⟩
  · rw [h] at hb
    exact .inl hb
  · rw [h] at hb
    exact .inl (mem_sweep.1 hb).1
  · rw [h] at hb
    rcases List.mem_append.1 hb with hb | hb
    · exact .inl (mem_sweep.1 hb).1
    · rw [List.mem_singleton.1 hb]
      exact .inr hm

/-- Every binding of the table is the one that the directory has under its name. -/
def Recorded (t : Table) (d : Directory) : Prop := ∀ b ∈ t.bindings, d b.method.name = some b

theorem Recorded.find?_eq_some_iff {d : Directory} (h : t.Recorded d) {name : String} {b : Binding} :
    t.find? name = some b ↔ b ∈ t.bindings ∧ b.method.name = name := by
  constructor
  · intro hfind
    exact ⟨List.mem_of_find?_eq_some hfind, by simpa using List.find?_some hfind⟩
  · rintro ⟨hb, rfl⟩
    cases hfind : t.find? b.method.name with
    | none => exact absurd (List.find?_eq_none.1 hfind b hb) (by simp)
    | some b' =>
      -- Two bindings of one name are one: the directory has room for one only.
      have hname : b'.method.name = b.method.name := by simpa using List.find?_some hfind
      have hd := h b' (List.mem_of_find?_eq_some hfind)
      rw [hname, h b hb] at hd
      exact hd.symm

end Table

namespace Registry

/-! ### The invariant -/

/-- How a table stands to its directory: it has nothing that the directory has not, all that still
lives, and the directory has nothing but methods with addresses in their regions. -/
structure Matches (s : Registry) (d : Directory) : Prop where
  recorded : s.table.Recorded d
  kept : ∀ {name b}, d name = some b → s.arena.alive b.region = true → b ∈ s.table.bindings
  name : ∀ {name b}, d name = some b → b.method.name = name
  inside : ∀ {name b}, d name = some b →
    ∃ r, s.arena.region? b.region = some r ∧ r.contains b.method.address = true

namespace Matches

variable {a a' : Arena} {t t' : Table} {d : Directory} {s : Registry}

theorem empty : Matches .empty fun _ => none where
  recorded b hb := by cases hb
  kept h := by cases h
  name h := by cases h
  inside h := by cases h

/-- Regions may come and go. -/
theorem of_precedes (h : Matches ⟨a, t⟩ d) (hp : a.Precedes a') : Matches ⟨a', t⟩ d where
  recorded := h.recorded
  kept hb hlive := by
    obtain ⟨r, hr, -⟩ := h.inside hb
    exact h.kept hb ((hp _ r hr).2 hlive)
  name := h.name
  inside hb := by
    obtain ⟨r, hr, hin⟩ := h.inside hb
    exact ⟨r, (hp _ r hr).1, hin⟩

/-- Dead bindings may go at any time. -/
theorem sweep (h : Matches ⟨a, t⟩ d) : Matches ⟨a, t.sweep a⟩ d where
  recorded b hb := h.recorded b (Table.mem_sweep.1 hb).1
  kept hb hlive := Table.mem_sweep.2 ⟨h.kept hb hlive, hlive⟩
  name := h.name
  inside := h.inside

theorem unbind (h : Matches ⟨a, t⟩ d) (name : String) :
    Matches ⟨a, (t.unbind name).1⟩ (Function.update d name none) := by
  have hother : ∀ {n b}, Function.update d name none n = some b → n ≠ name ∧ d n = some b := by
    intro n b hb
    by_cases hn : n = name
    · subst hn; simp at hb
    · rw [Function.update_of_ne hn] at hb
      exact ⟨hn, hb⟩
  refine ⟨fun b hb => ?_, fun hb hlive => ?_, fun hb => h.name (hother hb).2,
    fun hb => h.inside (hother hb).2⟩
  · obtain ⟨hmem, hne⟩ := Table.mem_unbind.1 hb
    rw [Function.update_of_ne hne]
    exact h.recorded b hmem
  · obtain ⟨hne, hd⟩ := hother hb
    exact Table.mem_unbind.2 ⟨h.kept hd hlive, by rw [h.name hd]; exact hne⟩

/-- A sensible method under a name that nothing living has. -/
theorem add (h : Matches ⟨a, t⟩ d) {m : Method} {region : RegionId} (hm : m.Sensible a region)
    (hfree : (t.sweep a).find? m.name = none) :
    Matches ⟨a, ⟨(t.sweep a).bindings ++ [⟨m, region⟩]⟩⟩
      (Function.update d m.name (some ⟨m, region⟩)) := by
  have hne : ∀ b ∈ (t.sweep a).bindings, b.method.name ≠ m.name := by
    intro b hb heq
    exact List.find?_eq_none.1 hfree b hb (by simp [heq])
  have hcases : ∀ {n b}, Function.update d m.name (some ⟨m, region⟩) n = some b →
      (n = m.name ∧ b = ⟨m, region⟩) ∨ (n ≠ m.name ∧ d n = some b) := by
    intro n b hb
    by_cases hn : n = m.name
    · subst hn
      rw [Function.update_self] at hb
      cases hb
      exact .inl ⟨rfl, rfl⟩
    · rw [Function.update_of_ne hn] at hb
      exact .inr ⟨hn, hb⟩
  refine ⟨fun b hb => ?_, fun hb hlive => ?_, fun hb => ?_, fun hb => ?_⟩
  · rcases List.mem_append.1 hb with hb | hb
    · rw [Function.update_of_ne (hne b hb)]
      exact h.sweep.recorded b hb
    · rw [List.mem_singleton.1 hb, Function.update_self]
  · rcases hcases hb with ⟨-, rfl⟩ | ⟨-, hd⟩
    · exact List.mem_append_right _ (List.mem_singleton_self _)
    · exact List.mem_append_left _ (h.sweep.kept hd hlive)
  · rcases hcases hb with ⟨rfl, rfl⟩ | ⟨-, hd⟩
    · rfl
    · exact h.name hd
  · rcases hcases hb with ⟨-, rfl⟩ | ⟨-, hd⟩
    · obtain ⟨r, hr, hin⟩ := hm.inside
      exact ⟨r, Arena.region?_of_get? hr, hin⟩
    · exact h.inside hd

/-- An offer, whatever comes of it. -/
theorem bind (h : Matches ⟨a, t⟩ d) (m : Method) (region : RegionId) :
    Matches ⟨a, (t.bind a m region).1⟩ (d.step ⟨a, t⟩ (.bind m region)) := by
  rcases t.bind_cases a m region with ⟨reason, -, hb⟩ | ⟨-, -, hb⟩ | ⟨hm, hfree, hb⟩
  · simp only [Directory.step, hb]
    exact h
  · simp only [Directory.step, hb]
    exact h.sweep
  · simp only [Directory.step, hb]
    exact h.add hm hfree

/-- Every event keeps a table and its directory together. -/
theorem step (h : Matches s d) (e : Event) : Matches (s.step e) (d.step s e) := by
  cases e with
  | add r => exact h.of_precedes (s.arena.precedes_add r)
  | acquire region => exact h.of_precedes (s.arena.precedes_acquire region)
  | release region => exact h.of_precedes (s.arena.precedes_release region)
  | bind m region => exact h.bind m region
  | unbind name => exact h.unbind name
  | purge => exact h.sweep
  | lookup name =>
    cases hlookup : s.table.lookup? s.arena name with
    | some g =>
      simp only [Registry.step, hlookup]
      exact h.of_precedes (s.arena.precedes_acquire g.region)
    | none =>
      simp only [Registry.step, hlookup]
      exact h

/-! ### Look-ups -/

/-- What a look-up finds is what the directory has, if its region lives. -/
theorem lookup?_eq_some_iff (h : Matches ⟨a, t⟩ d) {name : String} {g : Guard} :
    t.lookup? a name = some g ↔ ∃ b r, d name = some b ∧ a.get? b.region = some r ∧
      g = ⟨b.method, b.region, b.method.address - r.base⟩ := by
  simp only [Table.lookup?, Option.bind_eq_some_iff, Option.map_eq_some_iff,
    h.recorded.find?_eq_some_iff]
  constructor
  · rintro ⟨b, ⟨hb, rfl⟩, r, hr, rfl⟩
    exact ⟨b, r, h.recorded b hb, hr, rfl⟩
  · rintro ⟨b, r, hd, hr, rfl⟩
    exact ⟨b, ⟨h.kept hd (Arena.alive_of_get? hr), h.name hd⟩, r, hr, rfl⟩

/-- Two tables with one directory answer alike, however much they keep of what is dead. -/
theorem lookup?_congr (h : Matches ⟨a, t⟩ d) (h' : Matches ⟨a, t'⟩ d) (name : String) :
    t.lookup? a name = t'.lookup? a name := by
  apply Option.ext
  intro g
  rw [h.lookup?_eq_some_iff, h'.lookup?_eq_some_iff]

theorem lookup?_isSome_iff (h : Matches ⟨a, t⟩ d) {name : String} :
    (t.lookup? a name).isSome = true ↔ ∃ b, d name = some b ∧ a.alive b.region = true := by
  rw [Option.isSome_iff_exists]
  constructor
  · rintro ⟨g, hg⟩
    obtain ⟨b, r, hd, hr, -⟩ := h.lookup?_eq_some_iff.1 hg
    exact ⟨b, hd, Arena.alive_of_get? hr⟩
  · rintro ⟨b, hd, hlive⟩
    obtain ⟨r, hr⟩ := Option.isSome_iff_exists.1 hlive
    exact ⟨_, h.lookup?_eq_some_iff.2 ⟨b, r, hd, hr, rfl⟩⟩

/-- Only a living binding stands in the way of another one. -/
theorem find?_sweep_isSome_iff (h : Matches ⟨a, t⟩ d) {name : String} :
    ((t.sweep a).find? name).isSome = true ↔ ∃ b, d name = some b ∧ a.alive b.region = true := by
  rw [Option.isSome_iff_exists]
  refine exists_congr fun b => ?_
  rw [h.sweep.recorded.find?_eq_some_iff, Table.mem_sweep]
  constructor
  · rintro ⟨⟨hb, hlive⟩, rfl⟩
    exact ⟨h.recorded b hb, hlive⟩
  · rintro ⟨hd, hlive⟩
    exact ⟨⟨h.kept hd hlive, hlive⟩, h.name hd⟩

end Matches

/-- Every table is together with its directory at every point of its history. -/
theorem matches_history (events : List Event) :
    Matches (history events).1 (history events).2 := by
  unfold history
  generalize hs : Registry.empty = s
  have h : Matches s fun _ => none := hs ▸ Matches.empty
  generalize (fun _ => none : Directory) = d at h
  clear hs
  induction events generalizing s d with
  | nil => exact h
  | cons e events ih => exact ih _ _ (h.step e)

/-! ### Answers -/

/-- A table that answers as its directory and the living regions say. -/
structure Refines (s : Registry) (d : Directory) : Prop where
  /-- A name resolves while the region of its last binding lives. -/
  lookup_isSome : ∀ name, (s.table.lookup? s.arena name).isSome = true ↔
    ∃ b, d name = some b ∧ s.arena.alive b.region = true
  /-- The guard has the method and the region of that binding, and leads to the method's address, which
  lies in the region. -/
  lookup : ∀ name g, s.table.lookup? s.arena name = some g →
    ∃ b r, d name = some b ∧ b.method.name = name ∧ s.arena.get? b.region = some r ∧
      g.method = b.method ∧ g.region = b.region ∧ r.base ≤ b.method.address ∧
      r.contains b.method.address = true ∧ g.entryPoint? s.arena = some b.method.address
  /-- An offer is taken when the method is sensible and nothing living has its name. -/
  bind_ok : ∀ m region, (s.table.bind s.arena m region).2 = .ok () ↔
    m.Sensible s.arena region ∧ ¬ ∃ b, d m.name = some b ∧ s.arena.alive b.region = true
  bind_malformed : ∀ m region, ¬ m.Sensible s.arena region →
    ∃ reason, (s.table.bind s.arena m region).2 = .error (.malformed m.name reason)
  bind_duplicate : ∀ m region, m.Sensible s.arena region →
    (∃ b, d m.name = some b ∧ s.arena.alive b.region = true) →
      (s.table.bind s.arena m region).2 = .error (.duplicate m.name)
  /-- An offer that is refused changes no look-up. -/
  bind_error : ∀ m region e, (s.table.bind s.arena m region).2 = .error e →
    ∀ name, (s.table.bind s.arena m region).1.lookup? s.arena name =
      s.table.lookup? s.arena name
  purge : ∀ name, (s.table.purge s.arena).1.lookup? s.arena name = s.table.lookup? s.arena name

/-- The offset of an address in its region leads back to the address. -/
theorem entryPoint?_of_contains {a : Arena} {id : RegionId} {r : Region} {m : Method}
    (hr : a.get? id = some r) (hin : r.contains m.address = true) :
    r.base ≤ m.address ∧ (Guard.mk m id (m.address - r.base)).entryPoint? a = some m.address := by
  have hbounds : r.base ≤ m.address ∧ m.address < r.base + r.size := by
    simpa [Region.contains, Pages.contains, Region.base, Region.size] using hin
  obtain ⟨hle, hlt⟩ := hbounds
  refine ⟨hle, ?_⟩
  have hoffset : m.address - r.base < r.pages.size := by
    have : r.size = r.pages.size := rfl
    omega
  have hsum : r.pages.base + (m.address - r.base) = m.address := by
    have : r.base = r.pages.base := rfl
    omega
  rw [Guard.entryPoint?, hr, Option.bind_some, Pages.entryPoint?, if_pos hoffset, hsum]

theorem Matches.refines {s : Registry} {d : Directory} (h : Matches s d) : Refines s d where
  lookup_isSome name := h.lookup?_isSome_iff
  lookup name g hg := by
    obtain ⟨b, r, hd, hr, rfl⟩ := h.lookup?_eq_some_iff.1 hg
    obtain ⟨r', hr', hin⟩ := h.inside hd
    cases (Arena.region?_of_get? hr).symm.trans hr'
    obtain ⟨hle, hentry⟩ := entryPoint?_of_contains hr hin
    exact ⟨b, r, hd, h.name hd, hr, rfl, rfl, hle, hin, hentry⟩
  bind_ok m region := by
    have hfree : ((s.table.sweep s.arena).find? m.name).isSome = true ↔ _ :=
      h.find?_sweep_isSome_iff
    rcases s.table.bind_cases s.arena m region with ⟨reason, hm, hb⟩ | ⟨hm, hsome, hb⟩ |
      ⟨hm, hnone, hb⟩
    · simp [hb, hm]
    · simp [hb, hm, ← hfree, hsome]
    · simp [hb, hm, ← hfree, hnone]
  bind_malformed m region hm := by
    rcases s.table.bind_cases s.arena m region with ⟨reason, -, hb⟩ | ⟨hm', -, -⟩ | ⟨hm', -, -⟩
    · exact ⟨reason, by rw [hb]⟩
    · exact absurd hm' hm
    · exact absurd hm' hm
  bind_duplicate m region hm hlive := by
    rcases s.table.bind_cases s.arena m region with ⟨-, hm', -⟩ | ⟨-, -, hb⟩ | ⟨-, hnone, -⟩
    · exact absurd hm hm'
    · rw [hb]
    · rw [← h.find?_sweep_isSome_iff, hnone] at hlive
      cases hlive
  bind_error m region e he name := by
    have hd : d.step s (.bind m region) = d := by simp only [Directory.step, he]
    exact (hd ▸ h.bind m region).lookup?_congr h name
  purge name := h.sweep.lookup?_congr h name

/-- **A dispatch table refines its directory.** At every point of every history of bindings, removals,
purges, look-ups and regions that come and go, the table answers as its directory and the living
regions say. -/
theorem refines_history (events : List Event) :
    Refines (history events).1 (history events).2 :=
  (matches_history events).refines

/-- A name is bound again at the same address after its first region died. -/
example :
    let r : Region := ⟨⟨0x1000, [0], .executable⟩, 1, []⟩
    let m : Method := ⟨"f", "()V", 0x1000⟩
    let s := (history [.add r, .bind m 0, .release 0, .add r, .bind m 1]).1
    s.table.lookup? s.arena "f" = some ⟨m, 1, 0⟩ := by
  decide

end Registry

end Trampoline
