import Mathlib.Data.List.Induction
import Mathlib.Tactic.SplitIfs
import Trampoline.Code

/-!
# Linking

Code whose open fields are filled in is the code that would have been assembled had the addresses been
known from the start.

* `Item.linked`: the bytes of an item with its address in place;
* `patchAll?_append`: filling in the fields of code does not touch what stands behind it;
* `linkInto?_assemble`: linked code, item by item.
-/

namespace Trampoline

/-- The bytes of an item with its address in place. -/
def Item.linked : Item → Bytes
  | instruction i => i.encode
  | loadAddress dst target => (Instruction.moveImm dst target).encode
  | raw bs => bs

theorem Item.length_linked (i : Item) : i.linked.length = i.bytes.length := by
  cases i <;> simp [Item.linked, Item.bytes, Instruction.encode, imm64]

/-- Fill in all fields, in order. -/
def Fixup.patchAll? (fixups : List Fixup) (buffer : Bytes) : Option Bytes :=
  fixups.foldlM (fun bs f => f.patch? bs) buffer

namespace Code

theorem assemble_append_singleton (items : List Item) (i : Item) :
    assemble (items ++ [i]) = (assemble items).push i := by
  simp [assemble]

theorem bytes_assemble (items : List Item) :
    (assemble items).bytes = items.flatMap Item.bytes := by
  induction items using List.reverseRecOn with
  | nil => rfl
  | append_singleton items i ih =>
    rw [assemble_append_singleton, push, ih, List.flatMap_append, List.flatMap_singleton]

/-- The size of code is that of its linked form. -/
theorem size_assemble (items : List Item) :
    (assemble items).size = (items.flatMap Item.linked).length := by
  rw [size, bytes_assemble, List.length_flatMap, List.length_flatMap]
  simp only [Item.length_linked]

end Code

/-! ### Filling in fields -/

theorem Bytes.splice?_append {b new result : Bytes} {offset : Nat} (tail : Bytes)
    (h : Bytes.splice? b offset new = some result) :
    Bytes.splice? (b ++ tail) offset new = some (result ++ tail) := by
  unfold Bytes.splice? at h ⊢
  split_ifs at h with hle
  cases h
  rw [if_pos (by rw [List.length_append]; omega), List.take_append_of_le_length (by omega),
    List.drop_append_of_le_length hle]
  simp only [List.append_assoc]

/-- Overwriting the end of a buffer. -/
theorem Bytes.splice?_end (b : Bytes) {old new : Bytes} (h : new.length = old.length) :
    Bytes.splice? (b ++ old) b.length new = some (b ++ new) := by
  rw [Bytes.splice?, if_pos (Nat.le_of_eq (by rw [List.length_append, h])), List.take_left' rfl, h,
    ← List.length_append, List.drop_length, List.append_nil]

namespace Fixup

@[simp] theorem patchAll?_cons (f : Fixup) (fixups : List Fixup) (b : Bytes) :
    patchAll? (f :: fixups) b = (f.patch? b).bind (patchAll? fixups) := rfl

theorem patchAll?_append (fs gs : List Fixup) (b : Bytes) :
    patchAll? (fs ++ gs) b = (patchAll? fs b).bind (patchAll? gs) := by
  simp only [patchAll?, List.foldlM_append]
  rfl

theorem length_of_patchAll? {fixups : List Fixup} {b result : Bytes}
    (h : patchAll? fixups b = some result) : result.length = b.length := by
  induction fixups generalizing b with
  | nil => cases h; rfl
  | cons f fixups ih =>
    obtain ⟨b', hb, hr⟩ := Option.bind_eq_some_iff.1 h
    rw [ih hr, Bytes.length_of_splice? hb]

/-- Fields that lie in a buffer are filled in the same way when more bytes stand behind it. -/
theorem patchAll?_buffer_append {fixups : List Fixup} {b result : Bytes} (tail : Bytes)
    (h : patchAll? fixups b = some result) :
    patchAll? fixups (b ++ tail) = some (result ++ tail) := by
  induction fixups generalizing b with
  | nil => cases h; rfl
  | cons f fixups ih =>
    obtain ⟨b', hb, hr⟩ := Option.bind_eq_some_iff.1 h
    rw [patchAll?_cons, patch?, Bytes.splice?_append tail hb, Option.bind_some, ih hr]

end Fixup

/-- Behind code that is filled in already, the field of one more item is filled in. -/
theorem Item.patchAll?_fixups (b : Bytes) (i : Item) :
    Fixup.patchAll? (i.fixups b.length) (b ++ i.bytes) = some (b ++ i.linked) := by
  cases i with
  | instruction i => rfl
  | raw bs => rfl
  | loadAddress dst target =>
    have hlen : (imm64 target).length = (imm64 0).length := by simp [imm64]
    have h := Bytes.splice?_end (b ++ [(Rex.one true dst).byte, 0b10111#5 ++ dst.low]) hlen
    rw [List.append_assoc, List.append_assoc, List.length_append] at h
    rw [Item.fixups, Fixup.patchAll?_cons, Fixup.patch?]
    exact congrArg (Option.bind · (Fixup.patchAll? [])) h

namespace Code

theorem patchAll?_assemble (items : List Item) :
    Fixup.patchAll? (assemble items).fixups (assemble items).bytes =
      some (items.flatMap Item.linked) := by
  induction items using List.reverseRecOn with
  | nil => rfl
  | append_singleton items i ih =>
    have hsize : (assemble items).size = (items.flatMap Item.linked).length := size_assemble items
    rw [assemble_append_singleton, push, Fixup.patchAll?_append,
      Fixup.patchAll?_buffer_append _ ih, Option.bind_some, hsize, Item.patchAll?_fixups,
      List.flatMap_append, List.flatMap_singleton]

theorem length_of_linkInto? {c : Code} {origin : Nat} {buffer bytes : Bytes}
    (h : c.linkInto? origin buffer = some bytes) :
    buffer.length = c.size ∧ bytes.length = c.size := by
  unfold linkInto? at h
  split_ifs at h with hlen
  exact ⟨hlen, Fixup.length_of_patchAll? h⟩

/-- Linked code depends neither on where it runs nor on what was there. -/
theorem linkInto?_unique {c : Code} {origin origin' : Nat} {buffer buffer' bytes bytes' : Bytes}
    (h : c.linkInto? origin buffer = some bytes) (h' : c.linkInto? origin' buffer' = some bytes') :
    bytes = bytes' := by
  unfold linkInto? at h h'
  split_ifs at h h'
  exact Option.some.inj (h.symm.trans h')

/-- **Linking equals assembling with the addresses known**, over any buffer of the size of the code. -/
theorem linkInto?_assemble (items : List Item) (origin : Nat) {buffer : Bytes}
    (h : buffer.length = (assemble items).size) :
    (assemble items).linkInto? origin buffer = some (items.flatMap Item.linked) := by
  rw [linkInto?, if_pos h]
  exact patchAll?_assemble items

end Code

end Trampoline
