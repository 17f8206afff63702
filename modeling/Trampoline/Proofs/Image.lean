import Mathlib.Data.List.Forall2
import Mathlib.Data.List.Nodup
import Mathlib.Order.Bounds.Defs
import Mathlib.Order.MinMax
import Trampoline.Proofs.Fixups
import Trampoline.Proofs.Layout
import Trampoline.Stub.Lemmas

/-!
# The image of a region

Every byte of a region that was laid out, and where every stub lies in it.

* `Region.place`: the entries of a batch, found without a block; `of_mem_place`, `pairwise_place`: they
  lie one behind the other, in the room that the batch makes for them;
* `Filling.Grown`, `grown_of_foldlM`: filling a block adds these entries and leaves other bytes alone;
* `Filling.Twin`, `Twin.foldlM`: two blocks are filled alike, wherever they are;
* `Packed`: entries that start as early as their alignment lets them;
* `image_of_ofStubs`, `image_unique`: the region of a batch, and that it is the same everywhere;
* `Region.Laid`, `laid_of_ofStubs`: what a region is like, whatever its batch and its settings.
-/

namespace Trampoline

namespace Region

/-! ### Places of stubs -/

/-- The entries of stubs that are put behind `start`. -/
def place (alignment start : Nat) : List Stub → List Entry
  | [] => []
  | s :: stubs =>
    ⟨s.name, s.signature, s.descriptor, roundUp start alignment, s.size⟩ ::
      place alignment (roundUp start alignment + s.size) stubs

/-- Each entry starts at the first aligned offset from where the one before it ends. -/
def Packed (alignment : Nat) : Nat → List Entry → Prop
  | _, [] => True
  | start, e :: entries =>
    IsLeast {n | alignment ∣ n ∧ start ≤ n} e.offset ∧ Packed alignment (e.offset + e.size) entries

section Place

variable {alignment : Nat} (halign : 0 < alignment)

theorem forall₂_place (alignment start : Nat) (stubs : List Stub) :
    List.Forall₂ (fun s e => e.name = s.name ∧ e.signature = s.signature ∧
      e.descriptor = s.descriptor ∧ e.size = s.size) stubs (place alignment start stubs) := by
  induction stubs generalizing start with
  | nil => exact .nil
  | cons s stubs ih => exact .cons ⟨rfl, rfl, rfl, rfl⟩ (ih _)

include halign

theorem isLeast_roundUp (n : Nat) : IsLeast {m | alignment ∣ m ∧ n ≤ m} (roundUp n alignment) :=
  ⟨⟨dvd_roundUp n alignment, le_roundUp n halign⟩, fun _ hm => roundUp_le halign hm.2 hm.1⟩

theorem packed_place (start : Nat) (stubs : List Stub) :
    Packed alignment start (place alignment start stubs) := by
  induction stubs generalizing start with
  | nil => trivial
  | cons s stubs ih => exact ⟨isLeast_roundUp halign start, ih _⟩

/-- Every stub lies in the room that the batch makes, with one alignment for each stub. -/
theorem of_mem_place {start : Nat} {stubs : List Stub} {e : Entry}
    (h : e ∈ place alignment start stubs) :
    start ≤ e.offset ∧ e.offset + e.size ≤ start + roomFor alignment stubs := by
  induction stubs generalizing start with
  | nil => cases h
  | cons s stubs ih =>
    have hle := le_roundUp start halign
    have hlt := roundUp_lt start halign
    rw [roomFor]
    rcases List.mem_cons.1 h with rfl | h
    · show start ≤ roundUp start alignment ∧ roundUp start alignment + s.size ≤ _
      omega
    · have := ih h
      omega

/-- Every stub ends before the next one starts. -/
theorem pairwise_place (start : Nat) (stubs : List Stub) :
    (place alignment start stubs).Pairwise fun e e' => e.offset + e.size ≤ e'.offset := by
  induction stubs generalizing start with
  | nil => exact .nil
  | cons s stubs ih => exact .cons (fun e he => (of_mem_place halign he).1) (ih _)

end Place

theorem roomFor_eq_sum (alignment : Nat) (stubs : List Stub) :
    roomFor alignment stubs = (stubs.map fun s => s.size + alignment).sum := by
  induction stubs with
  | nil => rfl
  | cons s stubs ih => rw [roomFor, ih, List.map_cons, List.sum_cons]

/-! ### Filling a block -/

namespace Filling

variable {alignment : Nat} {f f' g g' : Filling} {s : Stub} {stubs : List Stub}

/-- What a list of stubs adds to a block. -/
structure Grown (alignment : Nat) (stubs : List Stub) (f f' : Filling) : Prop where
  entries : f'.entries = f.entries ++ place alignment f.offset stubs
  size : f'.pages.size = f.pages.size
  /-- Names stay distinct. -/
  nodup : (f.entries.map Entry.name).Nodup → (f'.entries.map Entry.name).Nodup
  /-- No byte changes outside the new entries. -/
  others : ∀ k, (∀ e ∈ place alignment f.offset stubs, k < e.offset ∨ e.offset + e.size ≤ k) →
    f'.pages.bytes[k]? = f.pages.bytes[k]?

theorem grown_of_add (h : f.add alignment s = .ok f') :
    Grown alignment [s] f f' ∧ f'.offset = roundUp f.offset alignment + s.size := by
  obtain ⟨field, code, pages, -, hcode, hwrite, hname, rfl⟩ := of_add h
  refine ⟨⟨rfl, (Pages.of_write? hwrite).2, fun hnodup => ?_, fun k hk => ?_⟩, rfl⟩
  · rw [List.map_append, List.map_singleton]
    exact hnodup.append (List.nodup_singleton _) (List.disjoint_singleton.2 hname)
  · obtain ⟨-, bytes, hbytes, rfl⟩ := Pages.write?_eq_some_iff.1 hwrite
    refine Bytes.getElem?_splice? hbytes ?_
    rw [(Code.length_of_linkInto? hcode).2]
    exact hk _ List.mem_cons_self

/-- **Filling a block adds the entries of its stubs** and leaves all other bytes as they were. -/
theorem grown_of_foldlM (h : stubs.foldlM (Filling.add alignment) f = .ok f') :
    Grown alignment stubs f f' := by
  induction stubs generalizing f with
  | nil =>
    cases h
    exact ⟨(List.append_nil _).symm, rfl, id, fun k hk => rfl⟩
  | cons s stubs ih =>
    obtain ⟨f₁, hadd, hfold⟩ := of_foldlM_cons h
    obtain ⟨hfirst, hoffset⟩ := grown_of_add hadd
    have hrest := ih hfold
    have hentries := hrest.entries
    have hothers := hrest.others
    rw [hoffset] at hentries hothers
    refine ⟨?_, hrest.size.trans hfirst.size, hrest.nodup ∘ hfirst.nodup, fun k hk => ?_⟩
    · rw [hentries, hfirst.entries, List.append_assoc]
      rfl
    · obtain ⟨hk, hks⟩ := List.forall_mem_cons.1 hk
      rw [hothers k hks, hfirst.others k (List.forall_mem_singleton.2 hk)]

/-- Two blocks with the same bytes, filled up to the same offset. -/
structure Twin (f g : Filling) : Prop where
  bytes : f.pages.bytes = g.pages.bytes
  offset : f.offset = g.offset

/-- One more stub makes no difference between two blocks: its code does not depend on where it runs. -/
theorem Twin.add (h : Twin f g) (hf : f.add alignment s = .ok f') (hg : g.add alignment s = .ok g') :
    Twin f' g' := by
  obtain ⟨field, code, pages, hfield, hcode, hwrite, -, rfl⟩ := of_add hf
  obtain ⟨field', code', pages', hfield', hcode', hwrite', -, rfl⟩ := of_add hg
  obtain ⟨-, bytes, hbytes, rfl⟩ := Pages.write?_eq_some_iff.1 hwrite
  obtain ⟨-, bytes', hbytes', rfl⟩ := Pages.write?_eq_some_iff.1 hwrite'
  rw [h.bytes, h.offset, Code.linkInto?_unique hcode hcode', hbytes'] at hbytes
  refine ⟨(Option.some.inj hbytes).symm, ?_⟩
  show roundUp f.offset alignment + s.size = roundUp g.offset alignment + s.size
  rw [h.offset]

theorem Twin.foldlM (h : Twin f g) (hf : stubs.foldlM (Filling.add alignment) f = .ok f')
    (hg : stubs.foldlM (Filling.add alignment) g = .ok g') : Twin f' g' := by
  induction stubs generalizing f g with
  | nil =>
    cases hf
    cases hg
    exact h
  | cons s stubs ih =>
    obtain ⟨f₁, hf₁, hf⟩ := of_foldlM_cons hf
    obtain ⟨g₁, hg₁, hg⟩ := of_foldlM_cons hg
    exact ih (h.add hf₁ hg₁) hf hg

end Filling

/-! ### Regions -/

/-- What the region of a batch is like under the settings and on the system that it was made with. -/
structure Laid (sys : System) (settings : Settings) (stubs : List Stub) (alignment : Nat) (r : Region) :
    Prop where
  /-- The alignment is the least power of two that is not below the one asked for. -/
  power : IsLeast {n | (∃ k, n = 2 ^ k) ∧ max 1 settings.stubAlignment ≤ n} alignment
  /-- There is one entry for each stub, in the order of the batch. -/
  entries : List.Forall₂ (fun s e => e.name = s.name ∧ e.signature = s.signature ∧
    e.descriptor = s.descriptor ∧ e.size = s.size) stubs r.entries
  packed : Packed alignment 0 r.entries
  /-- Every stub ends before the next one starts. -/
  apart : r.entries.Pairwise fun e e' => e.offset + e.size ≤ e'.offset
  /-- The stubs lie in the room that was made for them, -/
  room : ∀ e ∈ r.entries, e.offset + e.size ≤ (stubs.map fun s => s.size + alignment).sum
  /-- and so in the region. -/
  inside : ∀ e ∈ r.entries, e.offset + e.size ≤ r.size
  size : r.size = r.pageCount * settings.effectivePageSize sys
  /-- The pages hold the room, and fewer would not. -/
  pages : IsLeast
    {n | (stubs.map fun s => s.size + alignment).sum ≤ n * settings.effectivePageSize sys} r.pageCount
  /-- Under the name of a stub is its code with every address in its field. -/
  code : ∀ s ∈ stubs, ∃ bytes, r.codeOf? s.name = some bytes ∧ s.code.Filled bytes
  /-- All bytes outside the stubs are zero. -/
  padding : ∀ k < r.size, (∀ e ∈ r.entries, k < e.offset ∨ e.offset + e.size ≤ k) →
    r.pages.bytes[k]? = some 0

theorem isLeast_alignment {settings : Settings} {alignment : Nat}
    (h : settings.alignment? = some alignment) :
    IsLeast {n | (∃ k, n = 2 ^ k) ∧ max 1 settings.stubAlignment ≤ n} alignment := by
  have hpos := alignment_pos h
  unfold Settings.alignment? at h
  simp only [Option.ite_none_right_eq_some, Option.some.injEq] at h
  obtain ⟨-, rfl⟩ := h
  refine ⟨⟨leastPowerOfTwo_isPow _, max_le hpos (le_leastPowerOfTwo _)⟩, ?_⟩
  rintro n ⟨⟨k, rfl⟩, hn⟩
  exact leastPowerOfTwo_le (le_of_max_le_right hn)

section OfStubs

variable {sys : System} {settings : Settings} {stubs : List Stub} {r : Region}

/-- The region of a batch is a blank one in which the batch was filled in. -/
theorem image_of_ofStubs (h : ofStubs sys settings stubs = .ok r) :
    ∃ alignment, settings.alignment? = some alignment ∧ r.entries = place alignment 0 stubs ∧
      (r.entries.map Entry.name).Nodup ∧
      r.pageCount = ceilDiv (roomFor alignment stubs) (settings.effectivePageSize sys) ∧
      r.size = r.pageCount * settings.effectivePageSize sys ∧
      ∀ k < r.size, (∀ e ∈ r.entries, k < e.offset ∨ e.offset + e.size ≤ k) →
        r.pages.bytes[k]? = some 0 := by
  obtain ⟨alignment, pages, filled, halignment, hpages, hfilled, rfl⟩ := of_ofStubs h
  obtain ⟨-, hzero⟩ := Pages.of_allocate? hpages
  have hgrown := Filling.grown_of_foldlM hfilled
  have hsize : filled.pages.size = ceilDiv (roomFor alignment stubs) (settings.effectivePageSize sys) *
      settings.effectivePageSize sys := by
    rw [hgrown.size, Pages.size, hzero, List.length_replicate]
  have hcount : filled.pages.size / settings.effectivePageSize sys =
      ceilDiv (roomFor alignment stubs) (settings.effectivePageSize sys) := by
    rw [hsize, Nat.mul_div_cancel _ (settings.effectivePageSize_pos sys)]
  refine ⟨alignment, halignment, hgrown.entries, hgrown.nodup List.nodup_nil, hcount,
    hsize.trans (hcount ▸ rfl), fun k hk hout => ?_⟩
  have hout : ∀ e ∈ place alignment 0 stubs, k < e.offset ∨ e.offset + e.size ≤ k :=
    fun e he => hout e (hgrown.entries ▸ he)
  have hk : k < ceilDiv (roomFor alignment stubs) (settings.effectivePageSize sys) *
      settings.effectivePageSize sys := hsize ▸ hk
  show filled.pages.bytes[k]? = some 0
  rw [hgrown.others k hout, hzero, List.getElem?_replicate_of_lt hk]

/-- A batch has the same image wherever it lies on pages of one size. -/
theorem image_unique {sys' : System} {r' : Region}
    (hpage : settings.effectivePageSize sys' = settings.effectivePageSize sys)
    (h : ofStubs sys settings stubs = .ok r) (h' : ofStubs sys' settings stubs = .ok r') :
    r'.entries = r.entries ∧ r'.pages.bytes = r.pages.bytes := by
  obtain ⟨alignment, pages, filled, halignment, hpages, hfilled, rfl⟩ := of_ofStubs h
  obtain ⟨alignment', pages', filled', halignment', hpages', hfilled', rfl⟩ := of_ofStubs h'
  cases halignment.symm.trans halignment'
  obtain ⟨-, hzero⟩ := Pages.of_allocate? hpages
  rw [hpage] at hpages'
  obtain ⟨-, hzero'⟩ := Pages.of_allocate? hpages'
  have hstart : Filling.Twin ⟨pages', 0, []⟩ ⟨pages, 0, []⟩ := ⟨hzero'.trans hzero.symm, rfl⟩
  have hentries := (Filling.grown_of_foldlM hfilled).entries
  have hentries' := (Filling.grown_of_foldlM hfilled').entries
  exact ⟨hentries'.trans hentries.symm, (hstart.foldlM hfilled' hfilled).bytes⟩

/-- Under the name of each stub is its linked code. -/
theorem codeOf?_of_mem (h : ofStubs sys settings stubs = .ok r)
    (hnodup : (r.entries.map Entry.name).Nodup) {s : Stub} (hs : s ∈ stubs) :
    ∃ origin field bytes, s.code.linkInto? origin field = some bytes ∧
      r.codeOf? s.name = some bytes := by
  obtain ⟨-, limit, -, hholds⟩ := ofStubs_holds h
  obtain ⟨e, he, hs⟩ := exists_of_forall₂_left hholds hs
  obtain ⟨field, bytes, hlink, hread⟩ := hs.loaded
  refine ⟨_, field, bytes, hlink, ?_⟩
  rw [codeOf?, ← hs.name, entry?_of_mem hnodup he, Option.bind_some, hread]

/-- **The image of a region.** Whatever the batch, the settings and the answers of the system: the stubs lie
packed and apart, in the room made for them and in no more pages than hold it, each with every address in
its field; all else is zero; and the same batch has the same image wherever it lies on pages of that size. -/
theorem laid_of_ofStubs (hstubs : ∀ s ∈ stubs, s.Emitted) (h : ofStubs sys settings stubs = .ok r) :
    (∃ alignment, settings.alignment? = some alignment ∧ Laid sys settings stubs alignment r) ∧
      ∀ sys' r', settings.effectivePageSize sys' = settings.effectivePageSize sys →
        ofStubs sys' settings stubs = .ok r' →
        r'.entries = r.entries ∧ r'.pages.bytes = r.pages.bytes := by
  refine ⟨?_, fun sys' r' hpage h' => image_unique hpage h h'⟩
  obtain ⟨alignment, halignment, hentries, hnodup, hcount, hsize, hpadding⟩ := image_of_ofStubs h
  have hpage := settings.effectivePageSize_pos sys
  have halign := alignment_pos halignment
  have hroom : ∀ e ∈ r.entries, e.offset + e.size ≤ roomFor alignment stubs := by
    intro e he
    rw [hentries] at he
    simpa using (of_mem_place halign he).2
  have hheld : roomFor alignment stubs ≤ r.size := by
    rw [hsize, hcount]
    exact (ceilDiv_le_iff hpage).1 (Nat.le_refl _)
  refine ⟨alignment, halignment,
    { power := isLeast_alignment halignment
      entries := hentries ▸ forall₂_place alignment 0 stubs
      packed := hentries ▸ packed_place halign 0 stubs
      apart := hentries ▸ pairwise_place halign 0 stubs
      room := roomFor_eq_sum alignment stubs ▸ hroom
      inside := fun e he => (hroom e he).trans hheld
      size := hsize
      pages := ?_
      code := fun s hs => ?_
      padding := hpadding }⟩
  · rw [← roomFor_eq_sum, hcount]
    exact ⟨(ceilDiv_le_iff hpage).1 (Nat.le_refl _), fun n hn => (ceilDiv_le_iff hpage).2 hn⟩
  · obtain ⟨origin, field, bytes, hlink, hcode⟩ := codeOf?_of_mem h hnodup hs
    obtain ⟨items, hitems⟩ := (hstubs s hs).code_eq
    rw [hitems] at hlink ⊢
    exact ⟨bytes, hcode, Code.filled_of_linkInto? hlink⟩

end OfStubs

/-- A function that takes and gives nothing, and one that halves a number. -/
def halvingRequests : List Request :=
  [⟨"idle", ⟨[], ⟨.void, false⟩, .default⟩, 0x4000, false⟩,
    ⟨"half", ⟨[⟨.f64, false⟩], ⟨.f64, false⟩, .default⟩, 0x4100, true⟩]

/-- Their stubs. -/
def halvingStubs : List Stub :=
  halvingRequests.filterMap fun r => (Stub.ofRequest .host 0x5000 r).toOption

/-- Small pages, and an alignment that is no power of two. -/
def halvingSettings : Settings := ⟨true, 12, 0x5000, some 64⟩

/-- A system that gives a place and reports no page size. -/
def roomySystem : System := .granting (-1) fun _ => some 0x10000

theorem ok_of_toOption {ε α : Type} {x : Except ε α} {a : α} (h : x.toOption = some a) : x = .ok a := by
  cases x <;> cases h
  rfl

theorem emitted_halvingStubs : ∀ s ∈ halvingStubs, s.Emitted := by
  intro s hs
  obtain ⟨r, -, hr⟩ := List.mem_filterMap.1 hs
  exact ⟨_, _, r, ok_of_toOption hr⟩

theorem laid_halvingStubs :
    ∃ r, ofStubs roomySystem halvingSettings halvingStubs = .ok r ∧
      r.entries.map Entry.offset = [0, 32] ∧ r.pageCount = 2 ∧
      ∃ alignment, halvingSettings.alignment? = some alignment ∧
        Laid roomySystem halvingSettings halvingStubs alignment r := by
  have hshape : (ofStubs roomySystem halvingSettings halvingStubs).toOption.map
      (fun r => (r.entries.map Entry.offset, r.pageCount)) = some ([0, 32], 2) := by decide +kernel
  obtain ⟨r, hr, hpair⟩ := Option.map_eq_some_iff.1 hshape
  obtain ⟨hoffsets, hcount⟩ := Prod.mk.inj hpair
  have hok := ok_of_toOption hr
  exact ⟨r, hok, hoffsets, hcount, (laid_of_ofStubs emitted_halvingStubs hok).1⟩

end Region

end Trampoline
