import Mathlib.Data.List.Basic
import Mathlib.Data.Option.Basic
import Trampoline.Instruction.Listing
import Trampoline.Proofs.Decoding
import Trampoline.Proofs.Fixups

/-!
# Reading back assembled code

* `listingFrom?_encode`: a listing goes on behind each encoded instruction;
* `Item.opened?`, `Item.target?`: what an item should be read as, and the address that it waits for;
* `push?`, `foldlM_push?`: filling a buffer that takes one instruction of the machine;
* `listing?_assemble`: assembled code is read back as the sequence that it was assembled from, and its
  open fields are the constants of the loads.
-/

namespace Trampoline

namespace Instruction

theorem length_encode_pos (i : Instruction) : 0 < i.encode.length := by
  have h := length_lt_of_decode? (decode?_encode i [])
  rwa [List.append_nil] at h

/-- An encoded instruction is listed with the place and the number of its bytes, and the listing goes on
behind it. -/
theorem listingFrom?_encode (start : Nat) (i : Instruction) (bs : Bytes) :
    listingFrom? start (i.encode ++ bs) =
      (listingFrom? (start + i.encode.length) bs).map
        (⟨start, i.encode.length, ⟨i, i.hasRex⟩⟩ :: ·) := by
  have hpos := length_encode_pos i
  have hsize : (i.encode ++ bs).length - bs.length = i.encode.length := by simp
  rw [listingFrom?, if_neg (by simpa using fun h => absurd h (List.ne_nil_of_length_pos hpos))]
  split
  case h_1 h =>
    rw [decode?_encode] at h
    cases h
  case h_2 h =>
    rw [decode?_encode] at h
    cases h
    rw [hsize]

/-! ### Buffers of one instruction -/

/-- One more byte in a buffer that takes the longest instruction of the machine and no more. -/
def push? (buffer : Bytes) (b : Byte) : Option Bytes :=
  if buffer.length < maxLength then some (buffer ++ [b]) else none

theorem foldlM_push? {buffer bs : Bytes} (h : buffer.length + bs.length ≤ maxLength) :
    bs.foldlM push? buffer = some (buffer ++ bs) := by
  induction bs generalizing buffer with
  | nil => simp
  | cons b bs ih =>
    rw [List.length_cons] at h
    have hroom : (buffer ++ [b]).length + bs.length ≤ maxLength := by
      rw [List.length_append, List.length_singleton]
      omega
    rw [List.foldlM_cons, push?, if_pos (by omega)]
    simpa using ih hroom

end Instruction

/-! ### Items -/

namespace Item

/-- The instruction that an item is read as while its address is open. Raw bytes need not be one. -/
def opened? : Item → Option Instruction
  | instruction i => some i
  | loadAddress dst _ => some (.moveImm dst 0)
  | raw _ => none

/-- The address that an item waits for. -/
def target? : Item → Option Address
  | loadAddress _ target => some target
  | instruction _ | raw _ => none

theorem bytes_of_opened? {i : Item} {opened : Instruction} (h : i.opened? = some opened) :
    i.bytes = opened.encode := by
  cases i <;> cases h <;> rfl

/-- An item leaves open the constant of the instruction that it is read as. -/
theorem fixups_of_opened? {i : Item} {opened : Instruction} (start : Nat) (rex : Bool)
    (h : i.opened? = some opened) :
    i.fixups start = (i.target?.map
      (Fixup.mk (Instruction.Located.constant ⟨start, opened.encode.length, ⟨opened, rex⟩⟩))).toList := by
  cases i with
  | instruction i => rfl
  | raw bs => rfl
  | loadAddress dst target =>
    cases h
    simp [fixups, target?, Instruction.Located.constant, immediateOffset, Instruction.encode, imm64]

end Item

namespace Code

open Instruction

/-- The fields that wait for an address, as a listing of the code shows them. -/
def fieldsOf (items : List Item) (listing : List Located) : List Fixup :=
  (items.zip listing).flatMap fun (i, l) => (i.target?.map (Fixup.mk l.constant)).toList

theorem listingFrom?_items (start : Nat) {items : List Item} (h : ∀ bs, Item.raw bs ∉ items) :
    ∃ listing, listingFrom? start (items.flatMap Item.bytes) = some listing ∧
      items.map Item.opened? = listing.map (fun l => some l.decoded.instruction) ∧
      fixupsFrom start items = fieldsOf items listing ∧
      ∀ l ∈ listing, l.size = l.decoded.instruction.encode.length := by
  induction items generalizing start with
  | nil => exact ⟨[], by rw [List.flatMap_nil, listingFrom?]; rfl, rfl, rfl, fun l hl => by cases hl⟩
  | cons i items ih =>
    obtain ⟨opened, hopened⟩ : ∃ opened, i.opened? = some opened := by
      cases i with
      | instruction i => exact ⟨_, rfl⟩
      | loadAddress dst target => exact ⟨_, rfl⟩
      | raw bs => exact absurd List.mem_cons_self (h bs)
    have hbytes := Item.bytes_of_opened? hopened
    obtain ⟨listing, hlisting, hitems, hfixups, hsizes⟩ :=
      ih (start + opened.encode.length) fun bs hb => h bs (List.mem_cons_of_mem _ hb)
    refine ⟨⟨start, opened.encode.length, ⟨opened, opened.hasRex⟩⟩ :: listing, ?_, ?_, ?_, ?_⟩
    · rw [List.flatMap_cons, hbytes, listingFrom?_encode, hlisting]
      rfl
    · rw [List.map_cons, List.map_cons, hopened, hitems]
    · rw [fixupsFrom, hbytes, hfixups, Item.fixups_of_opened? start opened.hasRex hopened]
      rfl
    · exact List.forall_mem_cons.2 ⟨rfl, hsizes⟩

/-- **Assembled code reads back as its sequence.** Reading the code from its first byte to its last gives
the instructions of the sequence in order, an open load as the move of zero, and nothing else; the open
fields are the constants of these moves. Every instruction takes between one and ten bytes, so that it
fits into a buffer for the longest one. -/
theorem listing?_assemble (items : List Item) (h : ∀ bs, Item.raw bs ∉ items) :
    (∃ listing, listing? (assemble items).bytes = some listing ∧
      items.map Item.opened? = listing.map (fun l => some l.decoded.instruction) ∧
      (assemble items).fixups = fieldsOf items listing ∧
      ∀ l ∈ listing, 1 ≤ l.size ∧ l.size ≤ 10) ∧
    ∀ i : Instruction, 1 ≤ i.encode.length ∧ i.encode.length ≤ 10 ∧
      i.encode.foldlM push? [] = some i.encode := by
  have hlength (i : Instruction) : 1 ≤ i.encode.length ∧ i.encode.length ≤ 10 :=
    ⟨length_encode_pos i, length_encode_le i⟩
  refine ⟨?_, fun i => ⟨(hlength i).1, (hlength i).2, ?_⟩⟩
  · obtain ⟨listing, hlisting, hitems, hfixups, hsizes⟩ := listingFrom?_items 0 h
    rw [assemble_eq]
    exact ⟨listing, hlisting, hitems, hfixups, fun l hl => hsizes l hl ▸ hlength _⟩
  · have := hlength i
    exact foldlM_push? (by rw [List.length_nil, maxLength]; omega)

/-- A sequence with bases of every kind, short and long displacements and constants, and two open
loads. -/
def mixedItems : List Item :=
  [.instruction (.arith .sub .rsp 8), .loadAddress .r11 0x7f0012345678, .instruction (.call .r11),
    .instruction (.load .r9 ⟨.r12, 16⟩), .instruction (.store ⟨.r13, 0⟩ .rax),
    .instruction (.loadFloat .double .xmm7 ⟨.rbp, -129⟩), .instruction (.moveSigned .word .rax .r8),
    .loadAddress .rax 0x99, .instruction (.arith .add .rsp 128), .instruction .ret]

theorem listing?_mixedItems :
    ∃ listing, listing? (assemble mixedItems).bytes = some listing ∧
      listing.map (·.decoded.instruction) =
        [.arith .sub .rsp 8, .moveImm .r11 0, .call .r11, .load .r9 ⟨.r12, 16⟩, .store ⟨.r13, 0⟩ .rax,
          .loadFloat .double .xmm7 ⟨.rbp, -129⟩, .moveSigned .word .rax .r8, .moveImm .rax 0,
          .arith .add .rsp 128, .ret] ∧
      fieldsOf mixedItems listing = [⟨6, 0x7f0012345678⟩, ⟨40, 0x99⟩] ∧
      ∀ l ∈ listing, 1 ≤ l.size ∧ l.size ≤ 10 := by
  have hraw : ∀ bs, Item.raw bs ∉ mixedItems := by simp [mixedItems]
  obtain ⟨⟨listing, hlisting, hitems, hfixups, hsizes⟩, -⟩ := listing?_assemble mixedItems hraw
  refine ⟨listing, hlisting, ?_, ?_, hsizes⟩
  · refine List.map_injective_iff.2 (Option.some_injective _) ?_
    rw [List.map_map]
    exact hitems.symm
  · rw [← hfixups]
    decide

end Code

end Trampoline
