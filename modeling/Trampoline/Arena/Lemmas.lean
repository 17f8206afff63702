import Trampoline.Arena

/-!
# Lifetimes move forward

* `Arena.region?`: the region of a number, whether it lives or not;
* `Arena.Precedes`: a later arena keeps every region where it is, and no dead one lives again;
* `precedes_add`, `precedes_acquire`, `precedes_release`: every change of an arena is of this kind;
* `region?_add`, `region?_acquire`, `region?_release`: only a new region is anywhere new;
* `Arena.holders`: how many hold a region; `holders_add`, `holders_acquire`, `holders_release`.
-/

namespace Trampoline

namespace Arena

variable {a : Arena} {id : RegionId} {r : Region}

/-- The region of a number, whether it lives or not. -/
def region? (a : Arena) (id : RegionId) : Option Region := (a.slots[id]?).map (·.region)

theorem get?_eq_some_iff :
    a.get? id = some r ↔ ∃ s, a.slots[id]? = some s ∧ s.holders ≠ 0 ∧ s.region = r := by
  unfold get?
  rw [Option.bind_eq_some_iff]
  refine exists_congr fun s => and_congr_right fun _ => ?_
  by_cases h : s.holders = 0 <;> simp [h]

theorem alive_iff : a.alive id = true ↔ ∃ s, a.slots[id]? = some s ∧ s.holders ≠ 0 := by
  rw [alive, Option.isSome_iff_exists]
  constructor
  · rintro ⟨r, hr⟩
    obtain ⟨s, hs, hlive, -⟩ := get?_eq_some_iff.1 hr
    exact ⟨s, hs, hlive⟩
  · rintro ⟨s, hs, hlive⟩
    exact ⟨s.region, get?_eq_some_iff.2 ⟨s, hs, hlive, rfl⟩⟩

/-- What lives is where it always was. -/
theorem region?_of_get? (h : a.get? id = some r) : a.region? id = some r := by
  obtain ⟨s, hs, -, rfl⟩ := get?_eq_some_iff.1 h
  rw [region?, hs, Option.map_some]

theorem alive_of_get? (h : a.get? id = some r) : a.alive id = true := by
  rw [alive, h, Option.isSome_some]

/-- In the later arena every region is where it was, and none lives again that was dead. -/
def Precedes (a a' : Arena) : Prop :=
  ∀ id r, a.region? id = some r →
    a'.region? id = some r ∧ (a'.alive id = true → a.alive id = true)

theorem Precedes.refl (a : Arena) : a.Precedes a := fun _ _ h => ⟨h, id⟩

theorem Precedes.trans {a a' a'' : Arena} (h : a.Precedes a') (h' : a'.Precedes a'') :
    a.Precedes a'' := by
  intro id r hr
  obtain ⟨hr', hlive⟩ := h id r hr
  obtain ⟨hr'', hlive'⟩ := h' id r hr'
  exact ⟨hr'', hlive ∘ hlive'⟩

/-! ### A new region -/

theorem slots_add_of_lt (a : Arena) (r : Region) (h : id < a.slots.length) :
    (a.add r).1.slots[id]? = a.slots[id]? :=
  List.getElem?_append_left h

theorem lt_of_region? (h : a.region? id = some r) : id < a.slots.length := by
  unfold region? at h
  rw [Option.map_eq_some_iff] at h
  obtain ⟨s, hs, -⟩ := h
  exact (List.getElem?_eq_some_iff.1 hs).1

theorem slots_add (a : Arena) (r : Region) (id : RegionId) :
    (a.add r).1.slots[id]? = if id = (a.add r).2 then some ⟨r, 1⟩ else a.slots[id]? := by
  simp only [add, List.getElem?_append]
  rcases Nat.lt_trichotomy id a.slots.length with hlt | rfl | hlt
  · simp [hlt, Nat.ne_of_lt hlt]
  · simp
  · have hpast : id - a.slots.length ≠ 0 := Nat.sub_ne_zero_of_lt hlt
    simp [Nat.not_lt_of_gt hlt, Nat.ne_of_gt hlt, hpast]

theorem precedes_add (a : Arena) (r : Region) : a.Precedes (a.add r).1 := by
  intro id r' hr'
  have hslot := slots_add_of_lt a r (lt_of_region? hr')
  refine ⟨by rw [region?, hslot]; exact hr', fun h => ?_⟩
  rw [alive_iff, hslot] at h
  exact alive_iff.2 h

theorem get?_add_self (a : Arena) (r : Region) : (a.add r).1.get? (a.add r).2 = some r :=
  get?_eq_some_iff.2 ⟨⟨r, 1⟩, List.getElem?_concat_length, Nat.one_ne_zero, rfl⟩

/-- A new region changes nothing for those that were there. -/
theorem get?_add_of_lt (a : Arena) (r : Region) (h : id < a.slots.length) :
    (a.add r).1.get? id = a.get? id := by
  rw [get?, get?, slots_add_of_lt a r h]

/-! ### Holders -/

theorem precedes_modify (a : Arena) (id : RegionId) (f : Slot → Slot)
    (hregion : ∀ s, (f s).region = s.region) (hdead : ∀ s, s.holders = 0 → (f s).holders = 0) :
    a.Precedes ⟨a.slots.modify id f⟩ := by
  intro id' r hr
  have hget : (a.slots.modify id f)[id']? = (a.slots[id']?).map fun s => if id = id' then f s else s :=
    List.getElem?_modify f id a.slots id'
  unfold region? at hr
  obtain ⟨s, hs, rfl⟩ := Option.map_eq_some_iff.1 hr
  rw [hs, Option.map_some] at hget
  refine ⟨?_, fun h => ?_⟩
  · rw [region?, hget, Option.map_some]
    split
    · rw [hregion]
    · rfl
  · obtain ⟨s', hs', hlive⟩ := alive_iff.1 h
    cases hget.symm.trans hs'
    refine alive_iff.2 ⟨s, hs, fun hz => hlive ?_⟩
    split
    · exact hdead s hz
    · exact hz

theorem precedes_acquire (a : Arena) (id : RegionId) : a.Precedes (a.acquire id) := by
  refine precedes_modify a id _ (fun s => ?_) (fun s hs => ?_)
  · by_cases h : s.holders = 0 <;> simp [h]
  · simp [hs]

theorem precedes_release (a : Arena) (id : RegionId) : a.Precedes (a.release id) :=
  precedes_modify a id (fun s => { s with holders := s.holders - 1 }) (fun _ => rfl)
    fun s hs => by simp [hs]

/-! ### Where regions are -/

theorem region?_add (a : Arena) (r : Region) (id : RegionId) :
    (a.add r).1.region? id = if id = (a.add r).2 then some r else a.region? id := by
  simp only [region?, slots_add]
  by_cases heq : id = (a.add r).2 <;> simp [heq]

@[simp] theorem region?_acquire (a : Arena) (id id' : RegionId) :
    (a.acquire id).region? id' = a.region? id' := by
  simp only [region?, acquire, List.getElem?_modify]
  cases a.slots[id']? with
  | none => rfl
  | some s => by_cases heq : id = id' <;> by_cases hdead : s.holders = 0 <;> simp [heq, hdead]

@[simp] theorem region?_release (a : Arena) (id id' : RegionId) :
    (a.release id).region? id' = a.region? id' := by
  simp only [region?, release, List.getElem?_modify]
  cases a.slots[id']? with
  | none => rfl
  | some s => by_cases heq : id = id' <;> simp [heq]

/-! ### How many hold a region -/

/-- The number of holders of a region; nobody holds what was never made. -/
def holders (a : Arena) (id : RegionId) : Nat := ((a.slots[id]?).map (·.holders)).getD 0

theorem alive_iff_holders : a.alive id = true ↔ 0 < a.holders id := by
  rw [alive_iff, holders]
  cases a.slots[id]? <;> simp [Nat.pos_iff_ne_zero]

/-- A living region is the one that was made under its number. -/
theorem get?_of_alive (h : a.alive id = true) : a.get? id = a.region? id := by
  obtain ⟨s, hs, hlive⟩ := alive_iff.1 h
  simp [get?, region?, hs, hlive]

theorem holders_add (a : Arena) (r : Region) (id : RegionId) :
    (a.add r).1.holders id = a.holders id + if id = (a.add r).2 then 1 else 0 := by
  simp only [holders, slots_add]
  by_cases heq : id = a.slots.length <;> simp [add, heq]

theorem holders_acquire {a : Arena} {id : RegionId} (h : a.alive id = true) (id' : RegionId) :
    (a.acquire id).holders id' = a.holders id' + if id' = id then 1 else 0 := by
  obtain ⟨s, hs, hlive⟩ := alive_iff.1 h
  simp only [holders, acquire, List.getElem?_modify]
  by_cases heq : id = id'
  · subst heq
    simp [hs, hlive]
  · simp [heq, Ne.symm heq]

theorem holders_release (a : Arena) (id id' : RegionId) :
    (a.release id).holders id' = a.holders id' - if id' = id then 1 else 0 := by
  simp only [holders, release, List.getElem?_modify]
  by_cases heq : id = id'
  · subst heq
    cases a.slots[id]? <;> simp
  · simp [heq, Ne.symm heq]

end Arena

end Trampoline
