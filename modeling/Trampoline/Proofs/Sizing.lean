import Trampoline.Proofs.Image
import Trampoline.Region.Words

/-!
# The sizes of a batch

Laying out a batch computes its room, its pages and the place of every stub. Only the first two are
tested; that the rest stays in machine words follows from them.

* `ceilDivInWords?_eq`, `roundUpInWords?_eq`, `roomInWords?_eq`: the single computations;
* `Filling.Fits`: a block with room for what is still to come; `Fits.add`, `Fits.foldlM`: it keeps it;
* `Filling.Turn`, `Fits.turn`: the sums that one more stub takes, and that they are words;
* `ofStubsInWords_eq`: the layout in machine words is the layout;
* `ofStubs_eq_overflow_iff`: when there is none, for want of a word;
* `Region.Measured`, `Region.Sized`, `sized_ofStubs`: all computations, for every batch and all settings.
-/

namespace Trampoline

/-! ### Single computations -/

theorem checkedAdd?_eq_some {a b : Nat} (h : a + b < wordLimit) : checkedAdd? a b = some (a + b) :=
  if_pos h

theorem checkedAdd?_eq_none {a b : Nat} (h : wordLimit ≤ a + b) : checkedAdd? a b = none :=
  if_neg (Nat.not_lt.2 h)

/-- The number of pages of any number of bytes is a word. -/
theorem ceilDivInWords?_eq {n : Nat} (h : n < wordLimit) (a : Nat) :
    ceilDivInWords? n a = pagesFor? n a := by
  unfold ceilDivInWords? pagesFor?
  by_cases ha : a = 0
  · rw [if_pos ha, if_pos ha]
  · rw [if_neg ha, if_neg ha, ceilDiv_eq n (Nat.pos_of_ne_zero ha)]
    by_cases hrest : n % a = 0
    · rw [if_pos hrest, if_pos hrest]
    · have hn : 0 < n := Nat.pos_of_ne_zero fun h0 => hrest (by rw [h0, Nat.zero_mod])
      have hone : a ≠ 1 := fun h1 => hrest (by rw [h1, Nat.mod_one])
      -- What leaves a rest is more than one byte, so there are fewer blocks than bytes.
      have hlt : n / a < n := Nat.div_lt_self hn (by omega)
      rw [if_neg hrest, if_neg hrest, checkedAdd?_eq_some (by omega)]

theorem roundUpInWords?_eq {n a : Nat} (ha : 0 < a) (h : roundUp n a < wordLimit) :
    roundUpInWords? n a = some (roundUp n a) := by
  rw [roundUp_eq n ha] at h ⊢
  rw [roundUpInWords?, if_neg (Nat.ne_of_gt ha)]
  by_cases hrest : n % a = 0
  · rw [if_pos hrest, if_pos hrest]
  · rw [if_neg hrest] at h
    rw [if_neg hrest, if_neg hrest, checkedAdd?_eq_some h]

/-- The alignment is a word up to half of what words can hold. -/
theorem Settings.alignment?_eq (settings : Settings) :
    settings.alignment? = if 2 ^ 63 < settings.stubAlignment then none
      else some (leastPowerOfTwo settings.stubAlignment) := by
  have hlimit : leastPowerOfTwo settings.stubAlignment < wordLimit ↔
      settings.stubAlignment ≤ 2 ^ 63 := by
    rw [show wordLimit = 2 ^ (63 + 1) from rfl, leastPowerOfTwo_lt_iff]
  unfold alignment?
  by_cases h : 2 ^ 63 < settings.stubAlignment
  · rw [if_pos h]
    exact if_neg fun hlt => Nat.not_le.2 h (hlimit.1 hlt)
  · rw [if_neg h]
    exact if_pos (hlimit.2 (Nat.not_lt.1 h))

namespace Region

/-- Adding up stub by stub loses no sum that a word holds, since sums only grow. -/
theorem foldlM_room {alignment room : Nat} {stubs : List Stub} (h : room < wordLimit) :
    stubs.foldlM (fun room s => (checkedAdd? s.size alignment).bind (checkedAdd? room)) room =
      if wordLimit ≤ room + roomFor alignment stubs then none
      else some (room + roomFor alignment stubs) := by
  induction stubs generalizing room with
  | nil =>
    rw [roomFor, Nat.add_zero, if_neg (Nat.not_le.2 h)]
    rfl
  | cons s stubs ih =>
    have hsum : room + (s.size + alignment + roomFor alignment stubs) =
        room + (s.size + alignment) + roomFor alignment stubs := by omega
    rw [List.foldlM_cons, roomFor, hsum]
    by_cases hstub : wordLimit ≤ room + (s.size + alignment)
    · have hnone : (checkedAdd? s.size alignment).bind (checkedAdd? room) = none := by
        by_cases hslot : wordLimit ≤ s.size + alignment
        · rw [checkedAdd?_eq_none hslot, Option.bind_none]
        · rw [checkedAdd?_eq_some (Nat.not_le.1 hslot), Option.bind_some, checkedAdd?_eq_none hstub]
      rw [hnone, if_pos (hstub.trans (Nat.le_add_right _ _))]
      rfl
    · rw [checkedAdd?_eq_some (by omega), Option.bind_some, checkedAdd?_eq_some (Nat.not_le.1 hstub)]
      exact ih (Nat.not_le.1 hstub)

theorem roomInWords?_eq (alignment : Nat) (stubs : List Stub) :
    roomInWords? alignment stubs =
      if wordLimit ≤ roomFor alignment stubs then none else some (roomFor alignment stubs) := by
  rw [roomInWords?, foldlM_room (by decide), Nat.zero_add]

/-! ### Filling a block -/

namespace Filling

/-- A writable block of known place and size, in reach of machine words, with room for the stubs that are
still to come. -/
structure Fits (origin size alignment : Nat) (stubs : List Stub) (f : Filling) : Prop where
  writable : f.pages.protection = .writable
  base : f.pages.base = origin
  length : f.pages.size = size
  room : f.offset + roomFor alignment stubs ≤ size
  words : origin + size < wordLimit

/-- The sums that one more stub takes in a block of known place and size: its offset, its end and its
address are words, and its bytes are in the block. -/
structure Turn (origin size alignment : Nat) (s : Stub) (f : Filling) (offset : Nat) : Prop where
  rounded : roundUpInWords? f.offset alignment = some offset
  ends : checkedAdd? offset s.size = some (offset + s.size)
  address : checkedAdd? origin offset = some (origin + offset)
  inside : offset + s.size ≤ size
  slice : ∃ field, f.pages.read? offset s.size = some field

section Fits

variable {origin size alignment : Nat} {f f' : Filling} {s : Stub} {stubs done : List Stub}

section Aligned

variable (halign : 0 < alignment)

include halign

/-- Rounding up takes less than the one alignment that was added for the stub. -/
theorem Fits.round (h : f.Fits origin size alignment (s :: stubs)) :
    roundUp f.offset alignment + s.size + roomFor alignment stubs ≤ size := by
  have hroom := h.room
  have hround := roundUp_lt f.offset halign
  rw [roomFor] at hroom
  omega

theorem Fits.turn (h : f.Fits origin size alignment (s :: stubs)) :
    f.Turn origin size alignment s (roundUp f.offset alignment) := by
  have hround := h.round halign
  have hwords := h.words
  have hlength := h.length
  refine ⟨roundUpInWords?_eq halign (by omega), checkedAdd?_eq_some (by omega),
    checkedAdd?_eq_some (by omega), by omega, ?_⟩
  rw [Pages.size] at hlength
  exact ⟨_, Bytes.slice?_eq_some_iff.2 ⟨by omega, rfl⟩⟩

/-- Once a stub is in the block, there is room for the rest. -/
theorem Fits.add (h : f.Fits origin size alignment (s :: stubs)) (hadd : f.add alignment s = .ok f') :
    f'.Fits origin size alignment stubs := by
  have hround := h.round halign
  obtain ⟨field, code, pages, -, -, hwrite, -, rfl⟩ := of_add hadd
  obtain ⟨hbase, hsize⟩ := Pages.of_write? hwrite
  obtain ⟨hwritable, bytes, -, rfl⟩ := Pages.write?_eq_some_iff.1 hwrite
  exact ⟨hwritable, hbase.trans h.base, hsize.trans h.length, hround, h.words⟩

theorem Fits.foldlM (h : f.Fits origin size alignment (done ++ stubs))
    (hfold : done.foldlM (Filling.add alignment) f = .ok f') :
    f'.Fits origin size alignment stubs := by
  induction done generalizing f with
  | nil =>
    cases hfold
    exact h
  | cons s done ih =>
    obtain ⟨f₁, hadd, hfold⟩ := of_foldlM_cons hfold
    exact ih (h.add halign hadd) hfold

/-- Where there is room for a stub, putting it in words is putting it. -/
theorem Fits.addInWords_eq (h : f.Fits origin size alignment (s :: stubs)) :
    f.addInWords alignment s = f.add alignment s := by
  have hturn := h.turn halign
  have haddress := hturn.address
  rw [← h.base] at haddress
  simp only [addInWords, Filling.add, hturn.rounded, hturn.ends, haddress, Option.bind_eq_bind,
    Option.bind_some]
  cases f.pages.read? (roundUp f.offset alignment) s.size with
  | none => rfl
  | some field =>
    simp only [Option.bind_some]
    cases s.code.linkInto? (f.pages.base + roundUp f.offset alignment) field with
    | none => rfl
    | some code =>
      simp only [Option.bind_some]
      cases f.pages.write? (roundUp f.offset alignment) code with
      | none => rfl
      | some pages => rfl

/-- Where there is room for all stubs of a list, putting the first of them in words is putting them. -/
theorem Fits.foldlM_addInWords (h : f.Fits origin size alignment (done ++ stubs)) :
    done.foldlM (Filling.addInWords alignment) f = done.foldlM (Filling.add alignment) f := by
  induction done generalizing f with
  | nil => rfl
  | cons s done ih =>
    rw [List.foldlM_cons, List.foldlM_cons, h.addInWords_eq halign]
    cases hadd : f.add alignment s with
    | error e => rfl
    | ok f₁ => exact ih (h.add halign hadd)

/-- A stub for which there is room is put into the block, unless its name was used before. -/
theorem Fits.add_cases (h : f.Fits origin size alignment (s :: stubs))
    (hs : ∃ items, s.code = .assemble items) :
    s.name ∉ f.entries.map Entry.name ∧ (∃ f', f.add alignment s = .ok f') ∨
      s.name ∈ f.entries.map Entry.name ∧ f.add alignment s = .error (.build (.duplicate s.name)) := by
  obtain ⟨items, hitems⟩ := hs
  have hturn := h.turn halign
  obtain ⟨field, hread⟩ := hturn.slice
  have hlen := Bytes.length_of_slice? hread
  rw [Stub.size, hitems] at hlen
  have hlink := Code.linkInto?_assemble items (f.pages.base + roundUp f.offset alignment) hlen
  have hfits : roundUp f.offset alignment + (items.flatMap Item.linked).length ≤
      f.pages.bytes.length := by
    rw [← Code.size_assemble, ← hitems]
    exact hturn.inside.trans_eq h.length.symm
  have hwrite := Pages.write?_eq_some_iff.2
    ⟨h.writable, _, Bytes.splice?_eq_some_iff.2 ⟨hfits, rfl⟩, rfl⟩
  rw [← hitems] at hlink
  simp only [Filling.add, hread, hlink, hwrite, Option.bind_eq_bind, Option.bind_some]
  by_cases hname : s.name ∈ f.entries.map Entry.name
  · refine .inr ⟨hname, ?_⟩
    rw [if_pos (by simpa using hname)]
  · refine .inl ⟨hname, ?_⟩
    rw [if_neg (by simpa using hname)]
    exact ⟨_, rfl⟩

/-- Where there is room for all stubs of a list, none leaves its block. -/
theorem Fits.foldlM_ne_overflow (h : f.Fits origin size alignment stubs)
    (hstubs : ∀ s ∈ stubs, ∃ items, s.code = .assemble items) :
    stubs.foldlM (Filling.add alignment) f ≠ .error .overflow := by
  induction stubs generalizing f with
  | nil =>
    intro hfold
    cases hfold
  | cons s stubs ih =>
    obtain ⟨hs, hstubs⟩ := List.forall_mem_cons.1 hstubs
    rw [List.foldlM_cons]
    rcases h.add_cases halign hs with ⟨-, f₁, hadd⟩ | ⟨-, hadd⟩
    · rw [hadd]
      exact ih (h.add halign hadd) hstubs
    · rw [hadd]
      intro hfold
      cases hfold

end Aligned

/-- A new block has room for its batch. -/
theorem fits_of_allocate? {map : Mapper} {pageSize : Nat} {pages : Pages} (hpage : 0 < pageSize)
    (h : Pages.allocate? map (ceilDiv (roomFor alignment stubs) pageSize) pageSize = some pages) :
    Fits pages.base pages.size alignment stubs ⟨pages, 0, []⟩ := by
  have hwords := Pages.lt_wordLimit_of_allocate? h
  obtain ⟨-, -, base, -, -, -, rfl⟩ := Pages.allocate?_eq_some_iff.1 h
  refine ⟨rfl, rfl, rfl, ?_, hwords⟩
  rw [Nat.zero_add, Pages.size, List.length_replicate]
  exact (ceilDiv_le_iff hpage).1 (Nat.le_refl _)

end Fits

end Filling

/-! ### Laying out a batch -/

section OfStubs

variable {sys : System} {settings : Settings} {stubs : List Stub} {alignment : Nat}

/-- **The layout in machine words is the layout**: sums that are not tested lose nothing. -/
theorem ofStubsInWords_eq (sys : System) (settings : Settings) (stubs : List Stub) :
    ofStubsInWords sys settings stubs = ofStubs sys settings stubs := by
  have hpos := settings.effectivePageSize_pos sys
  rcases ofStubs_cases sys settings stubs with
    ⟨halign | ⟨alignment, halign, hroom⟩, h⟩ | ⟨alignment, halign, hroom, hpages⟩
  · rw [h]
    simp [ofStubsInWords, halign]
  · rw [h]
    simp [ofStubsInWords, halign, roomInWords?_eq, hroom]
  · have hcount := ceilDivInWords?_eq hroom (settings.effectivePageSize sys)
    rw [pagesFor?, if_neg (Nat.ne_of_gt hpos)] at hcount
    simp only [ofStubsInWords, halign, roomInWords?_eq, if_neg (Nat.not_le.2 hroom), hcount,
      Option.bind_eq_bind, Option.bind_some]
    rcases hpages with ⟨hnone, h⟩ | ⟨pages, hpages, hfill⟩
    · rw [h, hnone]
    · have hfits := Filling.fits_of_allocate? hpos hpages
      rw [← List.append_nil stubs] at hfits
      have hfold := hfits.foldlM_addInWords (alignment_pos halign)
      rcases hfill with ⟨e, herror, h⟩ | ⟨filled, hok, h⟩
      · simp only [h, hpages, hfold.trans herror]
      · simp only [h, hpages, hfold.trans hok]

/-- There is no layout for want of a word just where the alignment or the room is none. -/
theorem ofStubs_eq_overflow_iff (hstubs : ∀ s ∈ stubs, ∃ items, s.code = .assemble items) :
    ofStubs sys settings stubs = .error .overflow ↔ 2 ^ 63 < settings.stubAlignment ∨
      wordLimit ≤ roomFor (leastPowerOfTwo settings.stubAlignment) stubs := by
  have halignment := settings.alignment?_eq
  by_cases hlarge : 2 ^ 63 < settings.stubAlignment
  · rw [if_pos hlarge] at halignment
    exact ⟨fun _ => .inl hlarge, fun _ => by simp [ofStubs, halignment]⟩
  rw [if_neg hlarge] at halignment
  rcases ofStubs_cases sys settings stubs with
    ⟨halign | ⟨alignment, halign, hroom⟩, h⟩ | ⟨alignment, halign, hroom, hpages⟩
  · cases halignment.symm.trans halign
  · cases halignment.symm.trans halign
    exact ⟨fun _ => .inr hroom, fun _ => h⟩
  · cases halignment.symm.trans halign
    refine ⟨fun hover => ?_, fun hno => absurd hno (not_or.2 ⟨hlarge, Nat.not_le.2 hroom⟩)⟩
    rcases hpages with ⟨-, h⟩ | ⟨pages, hpages, ⟨e, herror, h⟩ | ⟨filled, -, h⟩⟩
    · cases h.symm.trans hover
    · cases h.symm.trans hover
      have hfits := Filling.fits_of_allocate? (settings.effectivePageSize_pos sys) hpages
      exact absurd herror (hfits.foldlM_ne_overflow (alignment_pos halign) hstubs)
    · obtain ⟨reason, -, hreason⟩ := Filling.finish_eq_error_iff.1 (h.symm.trans hover)
      cases hreason

end OfStubs

/-- What the computations come to for a batch whose alignment and room are words. -/
structure Measured (sys : System) (settings : Settings) (stubs : List Stub) (alignment room : Nat) :
    Prop where
  aligned : settings.alignment? = some alignment
  summed : roomInWords? alignment stubs = some room
  /-- The number of pages is a quotient by a number that is not zero. -/
  divisor : settings.effectivePageSize sys ≠ 0
  counted : ceilDivInWords? room (settings.effectivePageSize sys) =
    some (ceilDiv room (settings.effectivePageSize sys))
  /-- Pages of more bytes than a word can count are memory that there is not. -/
  exhausted : wordLimit ≤ ceilDiv room (settings.effectivePageSize sys) * settings.effectivePageSize sys →
    ofStubsInWords sys settings stubs =
      .error (.build (.outOfMemory room (ceilDiv room (settings.effectivePageSize sys))))
  /-- Where there is memory, each stub takes its turn in the same block without leaving it. -/
  turns : ∀ pages, Pages.allocate? sys.map (ceilDiv room (settings.effectivePageSize sys))
      (settings.effectivePageSize sys) = some pages → ∀ front s back f, stubs = front ++ s :: back →
    front.foldlM (Filling.addInWords alignment) ⟨pages, 0, []⟩ = .ok f →
    f.pages.base = pages.base ∧ f.pages.size = pages.size ∧
      ∃ offset, f.Turn pages.base pages.size alignment s offset

/-- How the sizes of a batch are computed in machine words, where `alignment` and `room` are the exact
numbers. -/
structure Sized (sys : System) (settings : Settings) (stubs : List Stub) (alignment room : Nat) :
    Prop where
  /-- Computing in words comes to what computing exactly does. -/
  exact : ofStubsInWords sys settings stubs = ofStubs sys settings stubs
  /-- Only for two reasons is there no result at all, -/
  overflow : ofStubsInWords sys settings stubs = .error .overflow ↔
    2 ^ 63 < settings.stubAlignment ∨ wordLimit ≤ room
  /-- and where neither holds, no computation fails. -/
  measured : ¬ (2 ^ 63 < settings.stubAlignment ∨ wordLimit ≤ room) →
    Measured sys settings stubs alignment room

/-- Where alignment and room are words, no computation fails. -/
theorem measured_of_room (sys : System) {settings : Settings} {stubs : List Stub} {alignment : Nat}
    (halign : settings.alignment? = some alignment) (hroom : roomFor alignment stubs < wordLimit) :
    Measured sys settings stubs alignment (roomFor alignment stubs) := by
  have hpos := settings.effectivePageSize_pos sys
  refine ⟨halign, ?_, Nat.ne_of_gt hpos, ?_, fun hlarge => ?_, ?_⟩
  · rw [roomInWords?_eq, if_neg (Nat.not_le.2 hroom)]
  · rw [ceilDivInWords?_eq hroom, pagesFor?, if_neg (Nat.ne_of_gt hpos)]
  · have hnone : Pages.allocate? sys.map (ceilDiv (roomFor alignment stubs) (settings.effectivePageSize sys))
        (settings.effectivePageSize sys) = none := if_pos (.inr hlarge)
    rw [ofStubsInWords_eq, ofStubs_of_none halign hroom hnone]
  · rintro pages hpages front s back f rfl hfold
    have hfits := Filling.fits_of_allocate? hpos hpages
    rw [hfits.foldlM_addInWords (alignment_pos halign)] at hfold
    have hturn := hfits.foldlM (alignment_pos halign) hfold
    exact ⟨hturn.base, hturn.length, _, hturn.turn (alignment_pos halign)⟩

/-- **The sizes of a batch are safe**, for every batch of stubs whose code was put together from sequences,
under all settings, and whatever the system answers. -/
theorem sized_ofStubs (sys : System) (settings : Settings) (stubs : List Stub)
    (hstubs : ∀ s ∈ stubs, ∃ items, s.code = .assemble items) :
    Sized sys settings stubs (leastPowerOfTwo settings.stubAlignment)
      (stubs.map fun s => s.size + leastPowerOfTwo settings.stubAlignment).sum := by
  rw [← roomFor_eq_sum]
  refine ⟨ofStubsInWords_eq sys settings stubs, ?_, fun hwords => ?_⟩
  · rw [ofStubsInWords_eq, ofStubs_eq_overflow_iff hstubs]
  · rw [not_or] at hwords
    have halignment := settings.alignment?_eq
    rw [if_neg hwords.1] at halignment
    exact measured_of_room sys halignment (Nat.not_le.1 hwords.2)

/-- One stub under the largest alignment, on pages of the same size: two pages would do, but no word counts
their bytes. Two stubs on the pages that count where neither the settings nor the system name a size: the
second one takes its turn in a page of 4096 bytes, and padding stands before it. -/
theorem sized_halvingStubs :
    (Sized roomySystem ⟨true, 2 ^ 63, 0x5000, some (2 ^ 63)⟩ (halvingStubs.take 1) (2 ^ 63) (2 ^ 63 + 21) ∧
      ofStubs roomySystem ⟨true, 2 ^ 63, 0x5000, some (2 ^ 63)⟩ (halvingStubs.take 1) =
        .error (.build (.outOfMemory (2 ^ 63 + 21) 2))) ∧
    ∃ second pages f, halvingStubs = halvingStubs.take 1 ++ [second] ∧
      Pages.allocate? roomySystem.map 1 4096 = some pages ∧
      (halvingStubs.take 1).foldlM (Filling.addInWords 16) ⟨pages, 0, []⟩ = .ok f ∧
      f.offset = 21 ∧ f.Turn 0x10000 4096 16 second 32 := by
  constructor
  · have hroom : ((halvingStubs.take 1).map fun s => s.size + leastPowerOfTwo (2 ^ 63)).sum =
        2 ^ 63 + 21 := by decide +kernel
    have hsized := sized_ofStubs roomySystem ⟨true, 2 ^ 63, 0x5000, some (2 ^ 63)⟩ (halvingStubs.take 1)
      fun s hs => (emitted_halvingStubs s (List.mem_of_mem_take hs)).code_eq
    rw [hroom] at hsized
    have hmeasured := hsized.measured (by decide)
    exact ⟨hsized, hsized.exact.symm.trans (hmeasured.exhausted (by decide))⟩
  · have hroom : (halvingStubs.map fun s => s.size + leastPowerOfTwo 12).sum = 96 := by decide +kernel
    have hsized := sized_ofStubs roomySystem ⟨true, 12, 0x5000, some 0⟩ halvingStubs fun s hs =>
      (emitted_halvingStubs s hs).code_eq
    rw [hroom] at hsized
    have hturns := (hsized.measured (by decide)).turns
    have hpage : Settings.effectivePageSize ⟨true, 12, 0x5000, some 0⟩ roomySystem = 4096 := rfl
    have hcount : ceilDiv 96 4096 = 1 := by decide
    rw [hpage, hcount] at hturns
    have hpages : Pages.allocate? roomySystem.map 1 4096 =
        some ⟨0x10000, List.replicate (1 * 4096) 0, .writable⟩ :=
      Pages.allocate?_eq_some_iff.2
        ⟨by decide, by decide, 0x10000, rfl, by decide, by decide, rfl⟩
    have hoffset : ((halvingStubs.take 1).foldlM (Filling.addInWords 16)
        ⟨⟨0x10000, List.replicate (1 * 4096) 0, .writable⟩, 0, []⟩).toOption.map (·.offset) =
        some 21 := by decide +kernel
    obtain ⟨f, hfold, hend⟩ := Option.map_eq_some_iff.1 hoffset
    obtain ⟨first, second, hstubs⟩ : ∃ first second, halvingStubs = [first, second] :=
      List.length_eq_two.1 (by decide +kernel)
    have hbefore : halvingStubs = halvingStubs.take 1 ++ [second] := by rw [hstubs]; rfl
    obtain ⟨-, hsize, offset, hturn⟩ :=
      hturns _ hpages _ second [] f hbefore (ok_of_toOption hfold)
    have hround := hturn.rounded
    rw [hend] at hround
    cases hround
    rw [Pages.size, List.length_replicate] at hturn
    exact ⟨second, _, f, hbefore, hpages, ok_of_toOption hfold, hend, hturn⟩

end Region

end Trampoline
