import Mathlib.Tactic.TFAE
import Trampoline.Memory.Lemmas

/-!
# Bounds of accesses

A cell says how many bytes its value takes, its accesses read and write a field, and a memory tests the
range of the field. These agree for every kind of value, on every platform and at every offset.

* `Memory.le_size_iff_checkedAdd?`: the test of a range in machine words;
* `Cell.marshal_of_fault`, `unmarshal_of_fault`: what a failed access leaves;
* `Cell.Exact`, `accesses_exact`: when the accesses of a cell succeed, what they fail for, and what they
  leave alone.
-/

namespace Trampoline

/-- A buffer has fewer bytes than there are words, so a range whose end no word holds is outside of it and
never starts over at zero. -/
theorem Memory.le_size_iff_checkedAdd? (m : Memory) (offset size : Nat) :
    offset + size ≤ m.size ↔ ∃ stop, checkedAdd? offset size = some stop ∧ stop ≤ m.size := by
  unfold checkedAdd?
  constructor
  · intro hle
    exact ⟨_, if_pos (hle.trans_lt m.length_lt), hle⟩
  · rintro ⟨stop, hstop, hle⟩
    split at hstop
    · cases hstop
      exact hle
    · cases hstop

namespace Cell

/-- What the two accesses of a cell to a memory come to. -/
structure Exact {s : Scalar} (c : Cell s) (m : Memory) (offset : Nat) : Prop where
  /-- Both succeed where the platform has values of the kind and as many bytes as the cell says lie in the
  buffer, and nowhere else; -/
  marshal_ok : (c.marshal m offset).2 = .ok () ↔
    s.Supported m.platform ∧ offset + s.size m.platform ≤ m.size
  unmarshal_ok : (c.unmarshal m offset).2 = .ok () ↔
    s.Supported m.platform ∧ offset + s.size m.platform ≤ m.size
  /-- where the end of the range is computed in words, neither succeeds if no word holds it. -/
  checked : s.Supported m.platform →
    [(c.marshal m offset).2 = .ok (), (c.unmarshal m offset).2 = .ok (),
      ∃ stop, checkedAdd? offset (s.size m.platform) = some stop ∧ stop ≤ m.size].TFAE
  /-- If the platform has no values of the kind, both fail with its size, wherever they go; -/
  unsupported : ¬ s.Supported m.platform →
    c.marshal m offset = (m, .error (.unsupportedWidth (s.storedBits m.platform))) ∧
      c.unmarshal m offset = (c, .error (.unsupportedWidth (s.storedBits m.platform)))
  /-- and if it has, but the field leaves the buffer, both fail with the range and the buffer's size. -/
  outside : s.Supported m.platform → m.size < offset + s.size m.platform →
    c.marshal m offset = (m, .error (.outOfBounds offset (s.size m.platform) m.size)) ∧
      c.unmarshal m offset = (c, .error (.outOfBounds offset (s.size m.platform) m.size))
  /-- Writing changes no byte outside the field, -/
  marshal_kept : Memory.Kept (Memory.field m.platform s offset) m (c.marshal m offset).1
  /-- and nothing at all when it fails. -/
  marshal_failed : ∀ e, (c.marshal m offset).2 = .error e → (c.marshal m offset).1 = m ∧
    m.step (.marshal s offset c) = (m, .cell s (s.size m.platform) c (some e))
  /-- Reading never changes the memory, -/
  unmarshal_kept : (m.step (.unmarshal s offset c)).1 = m
  /-- and not the cell either when it fails. -/
  unmarshal_failed : ∀ e, (c.unmarshal m offset).2 = .error e → (c.unmarshal m offset).1 = c ∧
    (m.step (.unmarshal s offset c)).2 = .cell s (s.size m.platform) c (some e)

variable {s : Scalar} {m : Memory} {offset : Nat}

theorem marshal_of_fits (c : Cell s) (h : m.Fits s offset) : (c.marshal m offset).2 = .ok () := by
  obtain ⟨m', hput⟩ := Memory.put_of_fits h c.held
  exact congrArg Prod.snd hput

theorem unmarshal_of_fits (c : Cell s) (h : m.Fits s offset) : (c.unmarshal m offset).2 = .ok () := by
  obtain ⟨v, hget⟩ := Memory.get_of_fits h
  rw [unmarshal, hget]

/-- A failed access leaves the memory and the cell as they were. -/
theorem marshal_of_fault (c : Cell s) {e : MarshalError} (h : m.Fault s offset e) :
    c.marshal m offset = (m, .error e) := Memory.put_of_fault h c.held

theorem unmarshal_of_fault (c : Cell s) {e : MarshalError} (h : m.Fault s offset e) :
    c.unmarshal m offset = (c, .error e) := by
  rw [unmarshal, Memory.get_of_fault h]

theorem marshal_ok_iff (c : Cell s) : (c.marshal m offset).2 = .ok () ↔
    s.Supported m.platform ∧ offset + s.size m.platform ≤ m.size :=
  Memory.ok_iff_fits c.marshal_of_fits fun _ h => congrArg Prod.snd (c.marshal_of_fault h)

theorem unmarshal_ok_iff (c : Cell s) : (c.unmarshal m offset).2 = .ok () ↔
    s.Supported m.platform ∧ offset + s.size m.platform ≤ m.size :=
  Memory.ok_iff_fits c.unmarshal_of_fits fun _ h => congrArg Prod.snd (c.unmarshal_of_fault h)

/-- **The accesses of a cell are exact**, for every kind of value, on every platform, and at every offset:
they succeed where the field lies in the buffer, say what is wrong elsewhere, and change nothing but the
field. -/
theorem accesses_exact (c : Cell s) (m : Memory) (offset : Nat) : c.Exact m offset where
  marshal_ok := c.marshal_ok_iff
  unmarshal_ok := c.unmarshal_ok_iff
  checked hs := by
    have hrange := (and_iff_right hs).trans (m.le_size_iff_checkedAdd? offset (s.size m.platform))
    tfae_have 1 ↔ 3 := c.marshal_ok_iff.trans hrange
    tfae_have 2 ↔ 3 := c.unmarshal_ok_iff.trans hrange
    tfae_finish
  unsupported h := ⟨c.marshal_of_fault (.unsupported h), c.unmarshal_of_fault (.unsupported h)⟩
  outside hs h := ⟨c.marshal_of_fault (.outside hs h), c.unmarshal_of_fault (.outside hs h)⟩
  marshal_kept := m.kept_put s offset c.held
  marshal_failed e h := by
    have hfault := Memory.fault_of_error c.marshal_of_fits
      (fun _ hfault => congrArg Prod.snd (c.marshal_of_fault hfault)) h
    have hfailed := c.marshal_of_fault hfault
    exact ⟨by rw [hfailed], by simp only [Memory.step, hfailed, Memory.fault?]⟩
  unmarshal_kept := rfl
  unmarshal_failed e h := by
    have hfault := Memory.fault_of_error c.unmarshal_of_fits
      (fun _ hfault => congrArg Prod.snd (c.unmarshal_of_fault hfault)) h
    have hfailed := c.unmarshal_of_fault hfault
    exact ⟨by rw [hfailed], by simp only [Memory.step, hfailed, Memory.fault?]⟩

/-- At the last offset that a machine word holds, even one byte is too many. -/
example : ((Cell.zero .i8).marshal ⟨.host, [1, 2, 3, 4], by decide⟩ (wordLimit - 1)).2 =
    .error (.outOfBounds (wordLimit - 1) 1 4) := by rfl

end Cell

end Trampoline
