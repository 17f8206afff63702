import Mathlib.Algebra.Ring.Nat
import Trampoline.Bytes

/-!
# Numbers in bytes

* `toNat_ofNat`: reading back the `n` low-order bytes of a number gives it up to a multiple of
  `256 ^ n`;
* `ofNat_mod`, `toNat_lt`: `n` bytes spell a number below `256 ^ n`;
* `slice?_middle`: a stretch between two others;
* `slice?_splice?_self`, `slice?_splice?_of_le`: what was written is read back, and what lies before it
  is as it was;
* `splice?_of_slice?`: writing what is there changes nothing;
* `getElem?_splice?`: no byte changes outside a write.
-/

namespace Trampoline

namespace Bytes

/-- Bytes beyond the `n`-th are dropped. -/
theorem toNat_ofNat (n v : Nat) : toNat (ofNat n v) = v % 256 ^ n := by
  induction n generalizing v with
  | zero => simp [ofNat, toNat, Nat.mod_one]
  | succ n ih =>
    have h : (256 : Nat) ^ (n + 1) = 256 * 256 ^ n := pow_succ' 256 n
    rw [ofNat, toNat, ih, BitVec.toNat_ofNat, h, Nat.mod_mul]

theorem ofNat_mod (n v : Nat) : ofNat n (v % 256 ^ n) = ofNat n v := by
  have h := ofNat_toNat (ofNat n v)
  rwa [length_ofNat, toNat_ofNat] at h

theorem toNat_lt (bs : Bytes) : toNat bs < 256 ^ bs.length := by
  induction bs with
  | nil => simp [toNat]
  | cons b bs ih =>
    have := b.isLt
    rw [toNat, List.length_cons, pow_succ]
    omega

theorem slice?_eq_some_iff {buffer bs : Bytes} {offset size : Nat} :
    slice? buffer offset size = some bs ↔
      offset + size ≤ buffer.length ∧ (buffer.drop offset).take size = bs := by
  unfold slice?
  by_cases h : offset + size ≤ buffer.length <;> simp [h]

theorem length_of_slice? {buffer bs : Bytes} {offset size : Nat}
    (h : slice? buffer offset size = some bs) : bs.length = size := by
  obtain ⟨hle, rfl⟩ := slice?_eq_some_iff.1 h
  rw [List.length_take, List.length_drop]
  omega

theorem splice?_eq_some_iff {buffer new result : Bytes} {offset : Nat} :
    splice? buffer offset new = some result ↔ offset + new.length ≤ buffer.length ∧
      buffer.take offset ++ new ++ buffer.drop (offset + new.length) = result := by
  unfold splice?
  by_cases h : offset + new.length ≤ buffer.length <;> simp [h]

/-- A stretch between two others is read where the first one ends. -/
theorem slice?_middle (front bs back : Bytes) :
    slice? (front ++ bs ++ back) front.length bs.length = some bs := by
  refine slice?_eq_some_iff.2 ⟨by simp only [List.length_append]; omega, ?_⟩
  rw [List.append_assoc, List.drop_left' rfl, List.take_left' rfl]

/-- What was written is read back. -/
theorem slice?_splice?_self {buffer new result : Bytes} {offset : Nat}
    (h : splice? buffer offset new = some result) : slice? result offset new.length = some new := by
  have hlen := length_of_splice? h
  obtain ⟨hle, rfl⟩ := splice?_eq_some_iff.1 h
  have hbefore : (buffer.take offset).length = offset := by rw [List.length_take]; omega
  have hread := slice?_middle (buffer.take offset) new (buffer.drop (offset + new.length))
  rwa [hbefore] at hread

/-- Writing what is there changes nothing. -/
theorem splice?_of_slice? {buffer bs : Bytes} {offset : Nat}
    (h : slice? buffer offset bs.length = some bs) : splice? buffer offset bs = some buffer := by
  obtain ⟨hle, hbs⟩ := slice?_eq_some_iff.1 h
  refine splice?_eq_some_iff.2 ⟨hle, ?_⟩
  calc buffer.take offset ++ bs ++ buffer.drop (offset + bs.length)
      = buffer.take offset ++ ((buffer.drop offset).take bs.length ++
          (buffer.drop offset).drop bs.length) := by
        rw [hbs, List.append_assoc, List.drop_drop]
    _ = buffer := by rw [List.take_append_drop, List.take_append_drop]

/-- What lies before a write is as it was. -/
theorem slice?_splice?_of_le {buffer new result : Bytes} {offset start size : Nat}
    (h : splice? buffer offset new = some result) (hle : start + size ≤ offset) :
    slice? result start size = slice? buffer start size := by
  have hlen := length_of_splice? h
  obtain ⟨hfits, rfl⟩ := splice?_eq_some_iff.1 h
  have hbefore : offset = (buffer.take offset).length := by rw [List.length_take]; omega
  rw [slice?, slice?, hlen, if_pos (by omega), if_pos (by omega), List.append_assoc,
    List.drop_append_of_le_length (by omega),
    List.take_append_of_le_length (by rw [List.length_drop]; omega), List.drop_take,
    List.take_take, min_eq_left (by omega)]

/-- No byte changes outside a write. -/
theorem getElem?_splice? {buffer new result : Bytes} {offset k : Nat}
    (h : splice? buffer offset new = some result) (hk : k < offset ∨ offset + new.length ≤ k) :
    result[k]? = buffer[k]? := by
  obtain ⟨hfits, rfl⟩ := splice?_eq_some_iff.1 h
  have hbefore : (buffer.take offset).length = offset := by rw [List.length_take]; omega
  rw [List.append_assoc]
  rcases hk with hk | hk
  · rw [List.getElem?_append_left (by omega), List.getElem?_take_of_lt hk]
  · rw [List.getElem?_append_right (by omega), List.getElem?_append_right (by omega), hbefore,
      List.getElem?_drop]
    congr 1
    omega

end Bytes

end Trampoline
