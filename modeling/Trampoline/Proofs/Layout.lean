import Mathlib.Data.List.Forall2
import Mathlib.Data.Nat.Basic
import Mathlib.Data.Option.Basic
import Mathlib.Order.Basic
import Mathlib.Tactic.SplitIfs
import Trampoline.Bytes.Lemmas
import Trampoline.Lists
import Trampoline.Proofs.Linking
import Trampoline.Region
import Trampoline.Rounding.Lemmas

/-!
# The layout of a batch

Stubs are put into a block one behind the other, and putting one there leaves the others alone.

* `Region.Entry.Holds`: where a stub lies in a block, and that its code is there;
* `Filling.of_add`, `Region.ofStubs_cases`, `Region.of_ofStubs`: what putting one stub and laying out a
  batch come to;
* `Filling.Holds`: what is true of a block while it is filled; `Filling.Holds.add`: one more stub;
* `Region.ofStubs_holds`: the entries of a region hold the stubs of its batch, in order.
-/

namespace Trampoline

/-! ### Blocks -/

namespace Pages

variable {p p' : Pages} {new : Bytes} {offset : Nat}

theorem write?_eq_some_iff : p.write? offset new = some p' ↔ p.protection = .writable ∧
    ∃ bytes, Bytes.splice? p.bytes offset new = some bytes ∧ p' = { p with bytes } := by
  unfold write?
  cases hp : p.protection with
  | writable => simp [eq_comm]
  | executable => simp

/-- Writing changes neither the place of a block nor its size. -/
theorem of_write? (h : p.write? offset new = some p') : p'.base = p.base ∧ p'.size = p.size := by
  obtain ⟨-, bytes, hbytes, rfl⟩ := write?_eq_some_iff.1 h
  exact ⟨rfl, Bytes.length_of_splice? hbytes⟩

theorem read?_write?_self (h : p.write? offset new = some p') :
    p'.read? offset new.length = some new := by
  obtain ⟨-, bytes, hbytes, rfl⟩ := write?_eq_some_iff.1 h
  exact Bytes.slice?_splice?_self hbytes

theorem read?_write?_of_le (h : p.write? offset new = some p') {start size : Nat}
    (hle : start + size ≤ offset) : p'.read? start size = p.read? start size := by
  obtain ⟨-, bytes, hbytes, rfl⟩ := write?_eq_some_iff.1 h
  exact Bytes.slice?_splice?_of_le hbytes hle

theorem le_size_of_read? {size : Nat} {bs : Bytes} (h : p.read? offset size = some bs) :
    offset + size ≤ p.size :=
  (Bytes.slice?_eq_some_iff.1 h).1

/-- What asking for a block comes to: its size is a word and not zero, and the system gives it a place
that starts after the null address and ends where a machine word can still name it. -/
theorem allocate?_eq_some_iff {map : Mapper} {count pageSize : Nat} {p : Pages} :
    allocate? map count pageSize = some p ↔ 0 < count * pageSize ∧ count * pageSize < wordLimit ∧
      ∃ base, map (count * pageSize) = some base ∧ 0 < base ∧ base + count * pageSize < wordLimit ∧
        p = ⟨base, List.replicate (count * pageSize) 0, .writable⟩ := by
  unfold allocate?
  constructor
  · intro h
    simp only at h
    split_ifs at h with hsize
    obtain ⟨base, hmap, hbase⟩ := Option.bind_eq_some_iff.1 h
    split_ifs at hbase with hplace
    cases hbase
    exact ⟨by omega, by omega, base, hmap, hplace.1, hplace.2, rfl⟩
  · rintro ⟨hpos, hlt, base, hmap, hbase, hend, rfl⟩
    simp only
    rw [if_neg (by omega), hmap, Option.bind_some, if_pos ⟨hbase, hend⟩]

/-- A new block starts after the null address, and it is all zero. -/
theorem of_allocate? {map : Mapper} {count pageSize : Nat} {p : Pages}
    (h : allocate? map count pageSize = some p) :
    0 < p.base ∧ p.bytes = List.replicate (count * pageSize) 0 := by
  obtain ⟨-, -, base, -, hbase, -, rfl⟩ := allocate?_eq_some_iff.1 h
  exact ⟨hbase, rfl⟩

/-- A new block is where the system put it. -/
theorem map_of_allocate? {map : Mapper} {count pageSize : Nat} {p : Pages}
    (h : allocate? map count pageSize = some p) : map p.size = some p.base := by
  obtain ⟨-, -, base, hmap, -, -, rfl⟩ := allocate?_eq_some_iff.1 h
  simpa [size] using hmap

/-- A new block ends where a machine word can still name it. -/
theorem lt_wordLimit_of_allocate? {map : Mapper} {count pageSize : Nat} {p : Pages}
    (h : allocate? map count pageSize = some p) : p.base + p.size < wordLimit := by
  obtain ⟨-, -, base, -, -, hend, rfl⟩ := allocate?_eq_some_iff.1 h
  simpa [size] using hend

end Pages

/-! ### Filling a block -/

namespace Region

/-- What putting one more stub comes to: its code is linked for its place and written there, and its name
is new. -/
theorem Filling.of_add {alignment : Nat} {f f' : Filling} {s : Stub}
    (h : f.add alignment s = .ok f') :
    ∃ field code pages, f.pages.read? (roundUp f.offset alignment) s.size = some field ∧
      s.code.linkInto? (f.pages.base + roundUp f.offset alignment) field = some code ∧
      f.pages.write? (roundUp f.offset alignment) code = some pages ∧
      s.name ∉ f.entries.map Entry.name ∧
      f' = ⟨pages, roundUp f.offset alignment + s.size,
        f.entries ++ [⟨s.name, s.signature, s.descriptor, roundUp f.offset alignment, s.size⟩]⟩ := by
  unfold add at h
  simp only [Option.bind_eq_bind] at h
  split at h
  case h_1 => cases h
  case h_2 pages hpages =>
    split at h
    case isTrue => cases h
    case isFalse hnew =>
      obtain ⟨field, hfield, hpages⟩ := Option.bind_eq_some_iff.1 hpages
      obtain ⟨code, hcode, hwrite⟩ := Option.bind_eq_some_iff.1 hpages
      cases h
      exact ⟨field, code, pages, hfield, hcode, hwrite, by simpa using hnew, rfl⟩

/-- Putting a list of stubs is putting the first one and then the others. -/
theorem Filling.of_foldlM_cons {alignment : Nat} {f f' : Filling} {s : Stub} {stubs : List Stub}
    (h : (s :: stubs).foldlM (Filling.add alignment) f = .ok f') :
    ∃ f₁, f.add alignment s = .ok f₁ ∧ stubs.foldlM (Filling.add alignment) f₁ = .ok f' := by
  rw [List.foldlM_cons] at h
  cases hadd : f.add alignment s with
  | error e => rw [hadd] at h; cases h
  | ok f₁ =>
    rw [hadd] at h
    exact ⟨f₁, rfl, h⟩

/-- A stub lies at its entry: the entry names it, the stub ends by `limit`, and its bytes are the code
of the stub with every address in its place. -/
structure Entry.Holds (pages : Pages) (limit : Nat) (s : Stub) (e : Entry) : Prop where
  name : e.name = s.name
  signature : e.signature = s.signature
  descriptor : e.descriptor = s.descriptor
  size : e.size = s.size
  fits : e.offset + e.size ≤ limit
  loaded : ∃ field bytes, s.code.linkInto? (pages.base + e.offset) field = some bytes ∧
    pages.read? e.offset e.size = some bytes

/-- A write behind a stub leaves it alone. -/
theorem Entry.Holds.write? {pages pages' : Pages} {limit limit' offset : Nat} {new : Bytes} {s : Stub}
    {e : Entry} (h : e.Holds pages limit s) (hwrite : pages.write? offset new = some pages')
    (hoffset : limit ≤ offset) (hlimit : limit ≤ limit') : e.Holds pages' limit' s := by
  have hfits := h.fits
  obtain ⟨field, bytes, hlink, hread⟩ := h.loaded
  refine ⟨h.name, h.signature, h.descriptor, h.size, by omega, field, bytes, ?_, ?_⟩
  · rw [(Pages.of_write? hwrite).1, hlink]
  · rw [Pages.read?_write?_of_le hwrite (by omega), hread]

/-- Making a block executable changes none of its bytes. -/
theorem Entry.Holds.freeze {pages : Pages} {limit : Nat} {s : Stub} {e : Entry}
    (h : e.Holds pages limit s) : e.Holds pages.freeze limit s :=
  ⟨h.name, h.signature, h.descriptor, h.size, h.fits, h.loaded⟩

/-- A block of known place and size in which the stubs lie so far. -/
structure Filling.Holds (origin size : Nat) (stubs : List Stub) (f : Filling) : Prop where
  base : f.pages.base = origin
  length : f.pages.size = size
  inside : f.offset ≤ size
  entries : List.Forall₂ (fun s e => e.Holds f.pages f.offset s) stubs f.entries

/-- One more stub lies behind those that are there already. -/
theorem Filling.Holds.add {origin size alignment : Nat} {stubs : List Stub} {f f' : Filling} {s : Stub}
    (h : f.Holds origin size stubs) (halign : 0 < alignment) (hadd : f.add alignment s = .ok f') :
    f'.Holds origin size (stubs ++ [s]) := by
  have hround := le_roundUp f.offset halign
  obtain ⟨field, code, pages, hfield, hcode, hwrite, -, rfl⟩ := of_add hadd
  have hlen : code.length = s.size := (Code.length_of_linkInto? hcode).2
  have hread := Pages.read?_write?_self hwrite
  rw [hlen] at hread
  obtain ⟨hbase, hsize⟩ := Pages.of_write? hwrite
  refine ⟨hbase.trans h.base, hsize.trans h.length, ?_, ?_⟩
  · have := Pages.le_size_of_read? hfield
    have := h.length
    show roundUp f.offset alignment + s.size ≤ size
    omega
  · refine List.rel_append (h.entries.imp fun s e he => ?_) (.cons ?_ .nil)
    · exact he.write? hwrite hround (hround.trans (Nat.le_add_right _ _))
    · exact ⟨rfl, rfl, rfl, rfl, Nat.le_refl _, field, code, by rw [hbase, hcode], hread⟩

/-- All stubs of a list, one behind the other. -/
theorem Filling.Holds.foldlM {origin size alignment : Nat} {done stubs : List Stub} {f f' : Filling}
    (h : f.Holds origin size done) (halign : 0 < alignment)
    (hfold : stubs.foldlM (Filling.add alignment) f = .ok f') :
    f'.Holds origin size (done ++ stubs) := by
  induction stubs generalizing done f with
  | nil =>
    cases hfold
    rw [List.append_nil]
    exact h
  | cons s stubs ih =>
    obtain ⟨f₁, hadd, hfold⟩ := of_foldlM_cons hfold
    have := ih (h.add halign hadd) hfold
    rwa [List.append_assoc] at this

theorem alignment_pos {settings : Settings} {alignment : Nat}
    (h : settings.alignment? = some alignment) : 0 < alignment := by
  unfold Settings.alignment? at h
  simp only [Option.ite_none_right_eq_some, Option.some.injEq] at h
  obtain ⟨k, hk⟩ := leastPowerOfTwo_isPow settings.stubAlignment
  rw [← h.2, hk]
  exact Nat.two_pow_pos k

section OfStubs

variable {sys : System} {settings : Settings} {stubs : List Stub} {alignment : Nat} {r : Region}

/-- Filled pages are a region if the system lets them be executed. -/
theorem Filling.finish_eq_ok_iff {pageSize : Nat} {f : Filling} :
    f.finish sys pageSize = .ok r ↔ sys.refusal? f.pages.base f.pages.size = none ∧
      r = ⟨f.pages.freeze, pageSize, f.entries⟩ := by
  unfold finish Pages.protect
  cases sys.refusal? f.pages.base f.pages.size <;> simp [eq_comm]

/-- Otherwise there is none for the reason that the system gives. -/
theorem Filling.finish_eq_error_iff {pageSize : Nat} {f : Filling} {e : CommitFailure} :
    f.finish sys pageSize = .error e ↔ ∃ reason,
      sys.refusal? f.pages.base f.pages.size = some reason ∧ e = .build (.protection reason) := by
  unfold finish Pages.protect
  cases sys.refusal? f.pages.base f.pages.size <;> simp [eq_comm]

/-- Without pages there is no region. -/
theorem ofStubs_of_none (halign : settings.alignment? = some alignment)
    (hroom : roomFor alignment stubs < wordLimit)
    (hpages : Pages.allocate? sys.map (ceilDiv (roomFor alignment stubs) (settings.effectivePageSize sys))
      (settings.effectivePageSize sys) = none) :
    ofStubs sys settings stubs = .error (.build (.outOfMemory (roomFor alignment stubs)
      (ceilDiv (roomFor alignment stubs) (settings.effectivePageSize sys)))) := by
  have hpage := Nat.ne_of_gt (settings.effectivePageSize_pos sys)
  simp only [ofStubs, halign, if_neg (Nat.not_le.2 hroom), pagesFor?, if_neg hpage, hpages]

/-- How laying out a batch ends: with no word for the alignment or for the room, without pages, as filling
the pages does, or as the system lets them be executed. -/
theorem ofStubs_cases (sys : System) (settings : Settings) (stubs : List Stub) :
    ((settings.alignment? = none ∨ ∃ alignment, settings.alignment? = some alignment ∧
          wordLimit ≤ roomFor alignment stubs) ∧
        ofStubs sys settings stubs = .error .overflow) ∨
      ∃ alignment, settings.alignment? = some alignment ∧ roomFor alignment stubs < wordLimit ∧
        ((Pages.allocate? sys.map
              (ceilDiv (roomFor alignment stubs) (settings.effectivePageSize sys))
              (settings.effectivePageSize sys) = none ∧
            ofStubs sys settings stubs = .error (.build (.outOfMemory (roomFor alignment stubs)
              (ceilDiv (roomFor alignment stubs) (settings.effectivePageSize sys))))) ∨
          ∃ pages, Pages.allocate? sys.map
              (ceilDiv (roomFor alignment stubs) (settings.effectivePageSize sys))
              (settings.effectivePageSize sys) = some pages ∧
            ((∃ e, stubs.foldlM (Filling.add alignment) ⟨pages, 0, []⟩ = .error e ∧
                ofStubs sys settings stubs = .error e) ∨
              ∃ filled, stubs.foldlM (Filling.add alignment) ⟨pages, 0, []⟩ = .ok filled ∧
                ofStubs sys settings stubs =
                  filled.finish sys (settings.effectivePageSize sys))) := by
  have hpage := Nat.ne_of_gt (settings.effectivePageSize_pos sys)
  cases halign : settings.alignment? with
  | none => exact .inl ⟨.inl rfl, by simp [ofStubs, halign]⟩
  | some alignment =>
    by_cases hroom : wordLimit ≤ roomFor alignment stubs
    · exact .inl ⟨.inr ⟨alignment, rfl, hroom⟩, by simp [ofStubs, halign, hroom]⟩
    refine .inr ⟨alignment, rfl, Nat.not_le.1 hroom, ?_⟩
    cases hpages : Pages.allocate? sys.map
        (ceilDiv (roomFor alignment stubs) (settings.effectivePageSize sys))
        (settings.effectivePageSize sys) with
    | none => exact .inl ⟨rfl, ofStubs_of_none halign (Nat.not_le.1 hroom) hpages⟩
    | some pages =>
      refine .inr ⟨pages, rfl, ?_⟩
      simp only [ofStubs, halign, if_neg hroom, pagesFor?, if_neg hpage, hpages]
      cases stubs.foldlM (Filling.add alignment) ⟨pages, 0, []⟩ with
      | error e => exact .inl ⟨e, rfl, rfl⟩
      | ok filled => exact .inr ⟨filled, rfl, rfl⟩

/-- What laying out a batch comes to: pages for all the room that it needs, filled with its stubs and
made executable. -/
theorem of_ofStubs (h : ofStubs sys settings stubs = .ok r) :
    ∃ alignment pages filled, settings.alignment? = some alignment ∧
      Pages.allocate? sys.map (ceilDiv (roomFor alignment stubs) (settings.effectivePageSize sys))
        (settings.effectivePageSize sys) = some pages ∧
      stubs.foldlM (Filling.add alignment) ⟨pages, 0, []⟩ = .ok filled ∧
      r = ⟨filled.pages.freeze, settings.effectivePageSize sys, filled.entries⟩ := by
  rcases ofStubs_cases sys settings stubs with ⟨-, hover⟩ | ⟨alignment, halign, -,
    ⟨-, hnone⟩ | ⟨pages, hpages, ⟨e, -, herror⟩ | ⟨filled, hfold, hfinish⟩⟩⟩
  · cases hover.symm.trans h
  · cases hnone.symm.trans h
  · cases herror.symm.trans h
  · exact ⟨alignment, pages, filled, halign, hpages, hfold,
      (Filling.finish_eq_ok_iff.1 (hfinish.symm.trans h)).2⟩

/-- **The entries of a region hold the stubs of its batch**, in order, and the region starts after the
null address. -/
theorem ofStubs_holds (h : ofStubs sys settings stubs = .ok r) :
    0 < r.base ∧ ∃ limit ≤ r.size,
      List.Forall₂ (fun s e => e.Holds r.pages limit s) stubs r.entries := by
  obtain ⟨alignment, pages, filled, halign, hpages, hfilled, rfl⟩ := of_ofStubs h
  have hstart : Filling.Holds pages.base pages.size [] ⟨pages, 0, []⟩ :=
    ⟨rfl, rfl, Nat.zero_le _, .nil⟩
  have hholds := hstart.foldlM (alignment_pos halign) hfilled
  rw [List.nil_append] at hholds
  refine ⟨?_, filled.offset, ?_, hholds.entries.imp fun s e he => he.freeze⟩
  · show 0 < filled.pages.base
    rw [hholds.base]
    exact (Pages.of_allocate? hpages).1
  · show filled.offset ≤ filled.pages.size
    rw [hholds.length]
    exact hholds.inside

/-- Every entry ends inside its region. -/
theorem le_size_of_mem (h : ofStubs sys settings stubs = .ok r) {e : Entry} (he : e ∈ r.entries) :
    e.offset + e.size ≤ r.size := by
  obtain ⟨-, limit, hlimit, hholds⟩ := ofStubs_holds h
  obtain ⟨s, -, hs⟩ := exists_of_forall₂_left hholds.flip he
  exact hs.fits.trans hlimit

/-- A region is where the block was that its batch was put into, and it is as large. -/
theorem allocated_of_ofStubs (h : ofStubs sys settings stubs = .ok r) :
    ∃ count pages, Pages.allocate? sys.map count (settings.effectivePageSize sys) = some pages ∧
      r.base = pages.base ∧ r.size = pages.size := by
  obtain ⟨alignment, pages, filled, halign, hpages, hfilled, rfl⟩ := of_ofStubs h
  have hstart : Filling.Holds pages.base pages.size [] ⟨pages, 0, []⟩ :=
    ⟨rfl, rfl, Nat.zero_le _, .nil⟩
  have hholds := hstart.foldlM (alignment_pos halign) hfilled
  exact ⟨_, pages, hpages, hholds.base, hholds.length⟩

/-- A region is where the system put a block of its size. -/
theorem map_of_ofStubs (h : ofStubs sys settings stubs = .ok r) : sys.map r.size = some r.base := by
  obtain ⟨count, pages, hpages, hbase, hsize⟩ := allocated_of_ofStubs h
  rw [hbase, hsize]
  exact Pages.map_of_allocate? hpages

/-- A region ends where a machine word can still name it. -/
theorem lt_wordLimit_of_ofStubs (h : ofStubs sys settings stubs = .ok r) : r.base + r.size < wordLimit := by
  obtain ⟨count, pages, hpages, hbase, hsize⟩ := allocated_of_ofStubs h
  rw [hbase, hsize]
  exact Pages.lt_wordLimit_of_allocate? hpages

end OfStubs

/-! ### Regions by name -/

theorem entry?_of_mem {region : Region} {e : Region.Entry}
    (hnodup : (region.entries.map Region.Entry.name).Nodup) (he : e ∈ region.entries) :
    region.entry? e.name = some e :=
  (find?_key_eq_some_iff hnodup).2 ⟨he, rfl⟩

end Region

end Trampoline
