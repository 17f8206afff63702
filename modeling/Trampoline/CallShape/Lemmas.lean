import Trampoline.CallShape

/-!
# Carriers of parameters

* `carriersFrom_eq_ok`, `carriersFrom_eq_error`: the carriers of a list of parameters, or the leftmost
  parameter without one;
* `LeftmostBare`, `find?_isNone_cases`: either every parameter has a carrier, or there is a leftmost one
  without;
* `count_filterMap`: the carriers show how many parameters travel in a bank.
-/

namespace Trampoline

/-- The carriers of slots show how many of the slots travel in a bank of registers. -/
theorem CallShape.count_filterMap (p : Platform) (b : Bank) (slots : List Slot) (ret : Return) :
    (CallShape.mk (slots.filterMap (Carrier.ofSlot? p)) ret).count b =
      slots.countP fun s => (Carrier.ofSlot? p s).any (·.bank == b) := by
  rw [count, List.countP_filterMap]
  congr 1
  funext s
  cases Carrier.ofSlot? p s <;> rfl

namespace Signature

variable {p : Platform}

/-- Where every parameter has a carrier, these are the carriers. -/
theorem carriersFrom_eq_ok (index : Nat) {slots : List Slot}
    (h : ∀ s ∈ slots, (Carrier.ofSlot? p s).isSome = true) :
    carriersFrom p index slots = .ok (slots.filterMap (Carrier.ofSlot? p)) := by
  induction slots generalizing index with
  | nil => rfl
  | cons s slots ih =>
    obtain ⟨hs, hslots⟩ := List.forall_mem_cons.1 h
    obtain ⟨c, hc⟩ := Option.isSome_iff_exists.1 hs
    simp only [carriersFrom, hc, ih (index + 1) hslots, List.filterMap_cons_some hc]
    rfl

/-- The leftmost parameter without a carrier is named with its position. -/
theorem carriersFrom_eq_error (index : Nat) {front : List Slot} {slot : Slot} (back : List Slot)
    (hfront : ∀ s ∈ front, (Carrier.ofSlot? p s).isSome = true)
    (hslot : Carrier.ofSlot? p slot = none) :
    carriersFrom p index (front ++ slot :: back) =
      .error (.parameter (index + front.length) slot.type) := by
  induction front generalizing index with
  | nil => simp only [List.nil_append, carriersFrom, hslot, List.length_nil, Nat.add_zero]
  | cons s front ih =>
    obtain ⟨hs, hfront⟩ := List.forall_mem_cons.1 hfront
    obtain ⟨c, hc⟩ := Option.isSome_iff_exists.1 hs
    simp only [List.cons_append, carriersFrom, hc, ih (index + 1) hfront, List.length_cons]
    rw [Nat.add_right_comm, Nat.add_assoc]
    rfl

/-- The parameters of a signature up to the leftmost one without a carrier. -/
structure LeftmostBare (p : Platform) (slots front : List Slot) (slot : Slot) : Prop where
  split : ∃ back, slots = front ++ slot :: back
  front : ∀ s ∈ front, (Carrier.ofSlot? p s).isSome = true
  bare : Carrier.ofSlot? p slot = none

theorem find?_isNone_cases (p : Platform) (slots : List Slot) :
    ((slots.find? fun s => (Carrier.ofSlot? p s).isNone) = none ∧
        ∀ s ∈ slots, (Carrier.ofSlot? p s).isSome = true) ∨
      ∃ front slot, (slots.find? fun s => (Carrier.ofSlot? p s).isNone) = some slot ∧
        LeftmostBare p slots front slot := by
  cases hfind : slots.find? fun s => (Carrier.ofSlot? p s).isNone with
  | none =>
    refine .inl ⟨rfl, fun s hs => ?_⟩
    have := List.find?_eq_none.1 hfind s hs
    simpa [Option.isSome_iff_ne_none] using this
  | some slot =>
    obtain ⟨hslot, front, back, hsplit, hfront⟩ := List.find?_eq_some_iff_append.1 hfind
    refine .inr ⟨front, slot, rfl, ⟨back, hsplit⟩, fun s hs => ?_, by simpa using hslot⟩
    simpa [Option.isSome_iff_ne_none] using hfront s hs

end Signature

end Trampoline
