import Mathlib.Data.List.Forall2
import Mathlib.Data.List.Induction
import Mathlib.Logic.Function.Basic
import Trampoline.Proofs.Attachment
import Trampoline.Proofs.Image

/-!
# Names and addresses in a region

A name leads to an entry, an entry to its address, and the address back to the entry. The first of these
goes over positions that are noted while the stubs are placed, the last over a search for the first entry
that fits.

* `Region.index`: the positions by name; `index_append`: how one more entry is noted; `isSome_index`,
  `index_eq_some_iff`, `entry?_eq_index`: what is noted, and what it leads to;
* `Region.Entry.Covers`, `stubAt?_eq_some_iff`: the addresses of an entry, and what is found there;
* `Region.Resolves`, `resolves_of_ofStubs`: how names and addresses go together in every region.
-/

namespace Trampoline

namespace Region

/-! ### Positions by name -/

/-- The positions of entries by name, noted one after the other. A name that comes again would take the
later position. -/
def index (entries : List Entry) : String → Option Nat :=
  entries.zipIdx.foldl (fun index (e, n) => Function.update index e.name (some n)) fun _ => none

/-- One more entry is noted with the number of those before it. -/
theorem index_append (entries : List Entry) (e : Entry) :
    index (entries ++ [e]) = Function.update (index entries) e.name (some entries.length) := by
  simp [index, List.zipIdx_append]

/-- A position was noted under the names that entries have, and under no other: to look for the position is
the same test for duplicates as to look through the entries. -/
theorem isSome_index (entries : List Entry) (name : String) :
    (index entries name).isSome = entries.any (·.name == name) := by
  induction entries using List.reverseRecOn with
  | nil => rfl
  | append_singleton entries e ih =>
    rw [index_append, List.any_append]
    by_cases hname : name = e.name
    · subst hname
      simp
    · have hne : (e.name == name) = false := beq_false_of_ne (Ne.symm hname)
      simp [Function.update_of_ne hname, ih, hne]

/-- Where names are distinct, the position under a name is that of the entry with the name. -/
theorem index_eq_some_iff {entries : List Entry} (hnodup : (entries.map Entry.name).Nodup)
    {name : String} {n : Nat} :
    index entries name = some n ↔ ∃ e, entries[n]? = some e ∧ e.name = name := by
  induction entries using List.reverseRecOn with
  | nil => simp [index]
  | append_singleton entries e ih =>
    rw [List.map_append, List.map_singleton, List.nodup_append] at hnodup
    obtain ⟨hfirst, -, hne⟩ := hnodup
    have hnew : ∀ e', entries[n]? = some e' → e'.name ≠ e.name := fun e' hget =>
      hne _ (List.mem_map_of_mem (List.mem_of_getElem? hget)) _ (List.mem_singleton_self _)
    simp only [index_append, getElem?_append_singleton_eq_some_iff]
    by_cases hname : name = e.name
    · subst hname
      rw [Function.update_self, Option.some.injEq]
      constructor
      · intro hn
        exact ⟨e, .inr ⟨hn.symm, rfl⟩, rfl⟩
      · rintro ⟨e', hget | ⟨hn, -⟩, heq⟩
        · exact absurd heq (hnew e' hget)
        · exact hn.symm
    · rw [Function.update_of_ne hname, ih hfirst]
      constructor
      · rintro ⟨e', hget, heq⟩
        exact ⟨e', .inl hget, heq⟩
      · rintro ⟨e', hget | ⟨-, rfl⟩, heq⟩
        · exact ⟨e', hget, heq⟩
        · exact absurd heq.symm hname

/-- The search for a name and its noted position lead to the same entry. -/
theorem entry?_eq_index {r : Region} (hnodup : (r.entries.map Entry.name).Nodup) (name : String) :
    r.entry? name = (index r.entries name).bind (r.entries[·]?) := by
  apply Option.ext
  intro e
  unfold entry?
  rw [find?_key_eq_some_iff hnodup, Option.bind_eq_some_iff]
  constructor
  · rintro ⟨he, hname⟩
    obtain ⟨n, hget⟩ := List.mem_iff_getElem?.1 he
    exact ⟨n, (index_eq_some_iff hnodup).2 ⟨e, hget, hname⟩, hget⟩
  · rintro ⟨n, hn, hget⟩
    obtain ⟨e', hget', hname⟩ := (index_eq_some_iff hnodup).1 hn
    cases hget.symm.trans hget'
    exact ⟨List.mem_of_getElem? hget, hname⟩

/-! ### Entries by address -/

/-- The address is that of a byte of the entry's code, in a region that starts at `base`. -/
def Entry.Covers (e : Entry) (base address : Nat) : Prop :=
  base + e.offset ≤ address ∧ address < base + e.offset + e.size

/-- What an entry covers, another one that starts behind it does not. -/
theorem Entry.not_covers_of_le {e e' : Entry} (h : e.offset + e.size ≤ e'.offset) (base address : Nat) :
    ¬ (e.Covers base address ∧ e'.Covers base address) := by
  unfold Covers
  omega

/-- An entry that has bytes covers its own address. -/
theorem Entry.covers_self {e : Entry} (h : 0 < e.size) (base : Nat) : e.Covers base (base + e.offset) :=
  ⟨Nat.le_refl _, Nat.lt_add_of_pos_right h⟩

theorem contains_of_covers {r : Region} {e : Entry} {address : Nat} (h : e.offset + e.size ≤ r.size)
    (hcovers : e.Covers r.base address) : r.contains address = true := by
  simp only [contains, Pages.contains, Bool.and_eq_true, decide_eq_true_eq]
  simp only [Entry.Covers, base, size] at hcovers h
  omega

/-- The first entry that fits an address is the entry that covers it. -/
theorem stubAt?_eq_some_iff {r : Region}
    (happart : r.entries.Pairwise fun e e' => e.offset + e.size ≤ e'.offset) {address : Nat} {e : Entry} :
    r.stubAt? address = some e ↔ e ∈ r.entries ∧ e.Covers r.base address := by
  unfold stubAt?
  by_cases hbase : r.base ≤ address
  · have hfits : ∀ e : Entry, (decide (e.offset ≤ address - r.base) &&
        decide (address - r.base < e.offset + e.size)) = true ↔ e.Covers r.base address := by
      intro e
      simp only [Bool.and_eq_true, decide_eq_true_eq, Entry.Covers]
      omega
    rw [if_pos hbase, find?_eq_some_iff_of_pairwise, hfits]
    refine happart.imp fun hle => ?_
    rw [hfits, hfits]
    exact Entry.not_covers_of_le hle _ _
  · rw [if_neg hbase]
    constructor
    · intro h
      cases h
    · rintro ⟨-, hlo, -⟩
      omega

/-! ### Regions -/

/-- How names and addresses go together in a region. -/
structure Resolves (r : Region) : Prop where
  /-- An address leads to an entry just where the entry covers it, -/
  stubAt : ∀ address e, r.stubAt? address = some e ↔ e ∈ r.entries ∧ e.Covers r.base address
  /-- no two entries cover one address, -/
  apart : r.entries.Pairwise fun e e' =>
    ∀ address, ¬ (e.Covers r.base address ∧ e'.Covers r.base address)
  /-- and a covered address is one of the region. -/
  contains : ∀ address e, r.stubAt? address = some e → r.contains address = true
  /-- A name leads to an entry just where the entry has it, -/
  entry : ∀ name e, r.entry? name = some e ↔ e ∈ r.entries ∧ e.name = name
  /-- no two entries have one name, -/
  distinct : (r.entries.map Entry.name).Nodup
  /-- and the positions that were noted lead to the same entries. -/
  indexed : ∀ name, r.entry? name = (index r.entries name).bind (r.entries[·]?)
  /-- The address of an entry is one of the region, and leads back to the entry. -/
  address : ∀ name e, r.entry? name = some e → r.addressOf? name = some (r.base + e.offset) ∧
    r.contains (r.base + e.offset) = true ∧ r.stubAt? (r.base + e.offset) = some e
  /-- Every entry starts inside the region, -/
  start : ∀ e ∈ r.entries, e.offset < r.size
  /-- so the address of a name is the one to call, and a name without an address has none to call. -/
  entryPoint : ∀ name, r.entryPoint? name = r.addressOf? name
  /-- All these addresses are machine words. -/
  words : r.base + r.size < wordLimit

/-- The entries of emitted stubs have bytes. -/
theorem size_pos_of_mem_place {alignment start : Nat} {stubs : List Stub}
    (hstubs : ∀ s ∈ stubs, s.Emitted) {e : Entry} (he : e ∈ place alignment start stubs) :
    0 < e.size := by
  obtain ⟨s, hs, -, -, -, hsize⟩ := exists_of_forall₂_left (forall₂_place alignment start stubs).flip he
  obtain ⟨p, saver, r, hrequest⟩ := hstubs s hs
  rw [hsize]
  exact Stub.size_pos hrequest

/-- **Names and addresses resolve** in the region of every batch, whatever its settings and wherever the
system puts it. -/
theorem resolves_of_ofStubs {sys : System} {settings : Settings} {stubs : List Stub} {r : Region}
    (hstubs : ∀ s ∈ stubs, s.Emitted) (h : ofStubs sys settings stubs = .ok r) : r.Resolves := by
  obtain ⟨alignment, halignment, hentries, hnodup, -⟩ := image_of_ofStubs h
  have happart : r.entries.Pairwise fun e e' => e.offset + e.size ≤ e'.offset :=
    hentries ▸ pairwise_place (alignment_pos halignment) 0 stubs
  have hinside : ∀ e ∈ r.entries, e.offset + e.size ≤ r.size := fun e he => le_size_of_mem h he
  have hpos : ∀ e ∈ r.entries, 0 < e.size := fun e he => size_pos_of_mem_place hstubs (hentries ▸ he)
  have hstart : ∀ e ∈ r.entries, e.offset < r.size := fun e he =>
    (Nat.lt_add_of_pos_right (hpos e he)).trans_le (hinside e he)
  refine
    { stubAt := fun address e => stubAt?_eq_some_iff happart
      apart := happart.imp fun hle => Entry.not_covers_of_le hle r.base
      contains := fun address e he => ?_
      entry := fun name e => find?_key_eq_some_iff hnodup
      distinct := hnodup
      indexed := entry?_eq_index hnodup
      address := fun name e he => ?_
      start := hstart
      entryPoint := fun name => ?_
      words := lt_wordLimit_of_ofStubs h }
  · obtain ⟨hmem, hcovers⟩ := (stubAt?_eq_some_iff happart).1 he
    exact contains_of_covers (hinside e hmem) hcovers
  · have hmem := List.mem_of_find?_eq_some he
    have hcovers := Entry.covers_self (hpos e hmem) r.base
    refine ⟨?_, contains_of_covers (hinside e hmem) hcovers, ?_⟩
    · rw [addressOf?, he, Option.map_some]
    · exact (stubAt?_eq_some_iff happart).2 ⟨hmem, hcovers⟩
  · rw [entryPoint?, addressOf?]
    cases he : r.entry? name with
    | none => rfl
    | some e =>
      rw [Option.bind_some, Option.map_some, Pages.entryPoint?]
      exact if_pos (hstart e (List.mem_of_find?_eq_some he))

/-- Between the two stubs is padding, where nothing is found. -/
theorem resolves_halvingStubs :
    ∃ r, ofStubs roomySystem halvingSettings halvingStubs = .ok r ∧ r.Resolves ∧
      r.addressOf? "half" = some 0x10020 ∧ r.entryPoint? "half" = some 0x10020 ∧
      (r.stubAt? 0x10020).map Entry.name = some "half" ∧ r.stubAt? 0x1001f = none := by
  have hshape : (ofStubs roomySystem halvingSettings halvingStubs).toOption.map (fun r =>
      (r.addressOf? "half", r.entryPoint? "half", (r.stubAt? 0x10020).map Entry.name,
        r.stubAt? 0x1001f)) = some (some 0x10020, some 0x10020, some "half", none) := by decide +kernel
  obtain ⟨r, hr, hfound⟩ := Option.map_eq_some_iff.1 hshape
  have hok := ok_of_toOption hr
  simp only [Prod.mk.injEq] at hfound
  exact ⟨r, hok, resolves_of_ofStubs emitted_halvingStubs hok, hfound⟩

end Region

end Trampoline
