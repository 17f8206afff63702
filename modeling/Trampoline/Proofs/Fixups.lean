import Mathlib.Tactic.SplitIfs
import Trampoline.Bytes.Lemmas
import Trampoline.Proofs.Linking

/-!
# Open fields

Where the fields are that assembled code leaves open, and what linking does to its other bytes.

* `fixupsFrom`, `assemble_eq`: the fields of a sequence, item by item from its start;
* `pairwise_fixups`, `fixups_inside`: the fields lie one behind the other, inside the code;
* `Code.Filled`, `filled_of_linkInto?`: linked code holds every target in its field, and is the code as
  it was everywhere else;
* `linkInto?_resolved`: linking does what assembling does when the addresses are known, for every buffer of
  the right size and for no other.
-/

namespace Trampoline

/-- The fields that a sequence leaves open when it starts at `start`. -/
def fixupsFrom (start : Nat) : List Item → List Fixup
  | [] => []
  | i :: items => i.fixups start ++ fixupsFrom (start + i.bytes.length) items

namespace Code

theorem foldl_push (items : List Item) (c : Code) :
    items.foldl push c =
      ⟨c.bytes ++ items.flatMap Item.bytes, c.fixups ++ fixupsFrom c.size items⟩ := by
  induction items generalizing c with
  | nil => simp [fixupsFrom]
  | cons i items ih =>
    rw [List.foldl_cons, ih]
    simp [push, size, fixupsFrom]

/-- Code is what its items are, one behind the other. -/
theorem assemble_eq (items : List Item) :
    assemble items = ⟨items.flatMap Item.bytes, fixupsFrom 0 items⟩ := by
  rw [assemble, foldl_push]
  rfl

end Code

/-! ### Where the fields are -/

/-- A field lies behind the opcode of its item, at the item's end. -/
theorem Item.mem_fixups {start : Nat} {i : Item} {f : Fixup} (h : f ∈ i.fixups start) :
    start ≤ f.offset ∧ f.offset + 8 = start + i.bytes.length := by
  cases i with
  | instruction i => cases h
  | raw bs => cases h
  | loadAddress dst target =>
    rw [fixups, List.mem_singleton] at h
    subst h
    simp [immediateOffset, bytes, Instruction.encode, imm64]

theorem mem_fixupsFrom {start : Nat} {items : List Item} {f : Fixup} (h : f ∈ fixupsFrom start items) :
    start ≤ f.offset ∧ f.offset + 8 ≤ start + (items.flatMap Item.bytes).length := by
  induction items generalizing start with
  | nil => cases h
  | cons i items ih =>
    rw [List.flatMap_cons, List.length_append]
    rcases List.mem_append.1 h with h | h
    · have := Item.mem_fixups h
      omega
    · have := ih h
      omega

/-- Each field ends before the next one starts. -/
theorem pairwise_fixupsFrom (start : Nat) (items : List Item) :
    (fixupsFrom start items).Pairwise fun f g => f.offset + 8 ≤ g.offset := by
  induction items generalizing start with
  | nil => exact .nil
  | cons i items ih =>
    refine List.pairwise_append.2 ⟨?_, ih _, fun f hf g hg => ?_⟩
    · cases i with
      | loadAddress dst target => exact List.pairwise_singleton _ _
      | instruction i => exact .nil
      | raw bs => exact .nil
    · have hf := Item.mem_fixups hf
      have hg := mem_fixupsFrom hg
      omega

namespace Code

theorem pairwise_fixups (items : List Item) :
    (assemble items).fixups.Pairwise fun f g => f.offset + 8 ≤ g.offset := by
  rw [assemble_eq]
  exact pairwise_fixupsFrom 0 items

theorem fixups_inside {items : List Item} {f : Fixup} (h : f ∈ (assemble items).fixups) :
    f.offset + 8 ≤ (assemble items).size := by
  rw [assemble_eq] at h ⊢
  have := (mem_fixupsFrom h).2
  rwa [Nat.zero_add] at this

end Code

/-! ### Filling them in -/

@[simp] theorem length_imm64 (v : Word) : (imm64 v).length = 8 := Bytes.length_ofNat 8 _

namespace Fixup

/-- No byte changes outside the fields. -/
theorem getElem?_patchAll? {fixups : List Fixup} {buffer result : Bytes} {k : Nat}
    (h : patchAll? fixups buffer = some result)
    (hk : ∀ f ∈ fixups, k < f.offset ∨ f.offset + 8 ≤ k) : result[k]? = buffer[k]? := by
  induction fixups generalizing buffer with
  | nil => cases h; rfl
  | cons f fixups ih =>
    obtain ⟨b, hb, hr⟩ := Option.bind_eq_some_iff.1 h
    rw [ih hr fun g hg => hk g (List.mem_cons_of_mem _ hg)]
    refine Bytes.getElem?_splice? hb ?_
    rw [length_imm64]
    exact hk f List.mem_cons_self

/-- What lies before the fields stays. -/
theorem slice?_patchAll?_of_le {fixups : List Fixup} {buffer result : Bytes} {start size : Nat}
    (h : patchAll? fixups buffer = some result) (hle : ∀ f ∈ fixups, start + size ≤ f.offset) :
    Bytes.slice? result start size = Bytes.slice? buffer start size := by
  induction fixups generalizing buffer with
  | nil => cases h; rfl
  | cons f fixups ih =>
    obtain ⟨b, hb, hr⟩ := Option.bind_eq_some_iff.1 h
    rw [ih hr fun g hg => hle g (List.mem_cons_of_mem _ hg)]
    exact Bytes.slice?_splice?_of_le hb (hle f List.mem_cons_self)

/-- Every field holds its target in the end, if each ends before the next one starts. -/
theorem slice?_patchAll? {fixups : List Fixup} {buffer result : Bytes} {f : Fixup}
    (h : patchAll? fixups buffer = some result)
    (hpairwise : fixups.Pairwise fun f g => f.offset + 8 ≤ g.offset) (hf : f ∈ fixups) :
    Bytes.slice? result f.offset 8 = some (imm64 f.target) := by
  induction fixups generalizing buffer with
  | nil => cases hf
  | cons g fixups ih =>
    obtain ⟨b, hb, hr⟩ := Option.bind_eq_some_iff.1 h
    obtain ⟨hbehind, hpairwise⟩ := List.pairwise_cons.1 hpairwise
    rcases List.mem_cons.1 hf with rfl | hf
    · rw [slice?_patchAll?_of_le hr hbehind]
      have hself := Bytes.slice?_splice?_self hb
      rwa [length_imm64] at hself
    · exact ih hr hpairwise hf

end Fixup

namespace Code

/-- Bytes are those of the code with every target in its field. -/
structure Filled (c : Code) (bytes : Bytes) : Prop where
  length : bytes.length = c.size
  /-- A target is spelled with its least significant byte first. -/
  targets : ∀ f ∈ c.fixups, Bytes.slice? bytes f.offset 8 = some (Bytes.ofNat 8 f.target.toNat)
  others : ∀ k, (∀ f ∈ c.fixups, k < f.offset ∨ f.offset + 8 ≤ k) → bytes[k]? = c.bytes[k]?

/-- **Linked code is filled**: linking writes the targets and nothing else. -/
theorem filled_of_linkInto? {items : List Item} {origin : Nat} {buffer bytes : Bytes}
    (h : (assemble items).linkInto? origin buffer = some bytes) : (assemble items).Filled bytes := by
  have hlength := (length_of_linkInto? h).2
  unfold linkInto? at h
  split_ifs at h
  exact ⟨hlength, fun f hf => Fixup.slice?_patchAll? h (pairwise_fixups items) hf,
    fun k hk => Fixup.getElem?_patchAll? h hk⟩

end Code

/-- The item with its address known from the start. -/
def Item.resolved : Item → Item
  | loadAddress dst target => .instruction (.moveImm dst target)
  | instruction i => .instruction i
  | raw bs => .raw bs

theorem Item.bytes_resolved (i : Item) : i.resolved.bytes = i.linked := by cases i <;> rfl

namespace Code

theorem bytes_assemble_resolved (items : List Item) :
    (assemble (items.map Item.resolved)).bytes = items.flatMap Item.linked := by
  rw [bytes_assemble, List.flatMap_map]
  simp only [Item.bytes_resolved]

/-- **Linking is assembling with the addresses known from the start.** Over a buffer of the size of the
code, whatever it holds and wherever it lies, linking gives the code of the sequence whose loads of
addresses are moves of constants; over any other it fails. The open fields stand in the order of their
offsets, eight bytes apart at least, and each lies inside the code. -/
theorem linkInto?_resolved (items : List Item) (origin : Nat) (buffer : Bytes) :
    (assemble items).linkInto? origin buffer =
        (if buffer.length = (assemble items).size then
          some (assemble (items.map Item.resolved)).bytes
        else none) ∧
      (assemble items).fixups.Pairwise (fun f g => f.offset < g.offset ∧ f.offset + 8 ≤ g.offset) ∧
      ∀ f ∈ (assemble items).fixups, f.offset + 8 ≤ (assemble items).size := by
  refine ⟨?_, (pairwise_fixups items).imp fun h => ⟨by omega, h⟩, fun f => fixups_inside⟩
  split_ifs with hlength
  · rw [linkInto?_assemble items origin hlength, bytes_assemble_resolved]
  · exact if_neg hlength

/-- What the buffer held is gone. -/
example : (assemble [.loadAddress .rax 0x1122, .instruction .ret]).linkInto? 0 (List.replicate 11 0xcc) =
    some [0x48, 0xb8, 0x22, 0x11, 0, 0, 0, 0, 0, 0, 0xc3] := by decide

end Code

end Trampoline
