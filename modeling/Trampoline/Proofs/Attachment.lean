import Mathlib.Data.List.Forall2
import Trampoline.Linkage.Lemmas
import Trampoline.Proofs.Batches
import Trampoline.Proofs.Layout
import Trampoline.Proofs.Publication

/-!
# Attaching a batch

From the requests that a compiler took to the names that resolve afterwards.

* `sensible_of_holds`: the method of a stub that was laid out is sensible for its region;
* `Linkage.Publishes`: what an attachment does to a dispatch table;
* `attach_publishes`: every attachment of a batch does that.
-/

namespace Trampoline

/-! ### Stubs make sensible methods -/

/-- No type is written as a parenthesis. -/
theorem Slot.isUpper_letter (p : Platform) (s : Slot) : (s.letter p).isUpper = true := by
  unfold letter
  split
  case h_5 => split <;> (try split) <;> decide
  all_goals decide

theorem Slot.letter_ne_parenthesis (p : Platform) (s : Slot) : s.letter p ≠ ')' := by
  intro h
  have hupper := s.isUpper_letter p
  rw [h] at hupper
  exact absurd hupper (by decide)

theorem Signature.head?_descriptor (p : Platform) (s : Signature) :
    (s.descriptor p).toList.head? = some '(' := by
  simp [descriptor, descriptorChars]

theorem Signature.mem_descriptor (p : Platform) (s : Signature) :
    ')' ∈ (s.descriptor p).toList := by
  simp [descriptor, descriptorChars]

theorem Signature.getLast?_descriptor (p : Platform) (s : Signature) :
    (s.descriptor p).toList.getLast? = some (s.ret.letter p) := by
  simp [descriptor, descriptorChars, List.getLast?_cons]

/-- Every stub ends with a return, so it has at least one byte. -/
theorem Stub.size_pos {p : Platform} {saver : Address} {r : Request} {s : Stub}
    (h : Stub.ofRequest p saver r = .ok s) : 0 < s.size := by
  obtain ⟨ret, -, rfl⟩ := ofRequest_eq_ok_iff.1 h
  show 0 < (codeOf p saver r ret).size
  rw [codeOf, Code.size_assemble]
  refine List.length_pos_of_ne_nil fun hnil => ?_
  have hret := List.flatMap_eq_nil_iff.1 hnil (.instruction .ret) (by simp [program])
  cases hret

/-- The method of a stub that was laid out is sensible, if only it has a name. -/
theorem Region.sensible_of_holds {a : Arena} {id : RegionId} {region : Region} {limit : Nat}
    {p : Platform} {saver : Address} {r : Request} {s : Stub} {e : Entry}
    (hstub : Stub.ofRequest p saver r = .ok s) (he : e.Holds region.pages limit s)
    (hlimit : limit ≤ region.size) (hbase : 0 < region.base) (hregion : a.get? id = some region)
    (hname : e.name ≠ "") : (Method.mk e.name e.descriptor (region.base + e.offset)).Sensible a id := by
  have hsize := Stub.size_pos hstub
  have hfits := he.fits
  rw [he.size] at hfits
  have hdescriptor : e.descriptor = r.signature.descriptor p := by
    obtain ⟨ret, -, rfl⟩ := Stub.ofRequest_eq_ok_iff.1 hstub
    exact he.descriptor
  refine ⟨hname, ?_, ?_, ?_, Nat.ne_of_gt (Nat.add_pos_left hbase _), region, hregion, ?_⟩
  · rw [hdescriptor, Signature.head?_descriptor]
  · rw [hdescriptor]
    exact Signature.mem_descriptor p _
  · rw [hdescriptor, Signature.getLast?_descriptor]
    exact fun h => Slot.letter_ne_parenthesis p _ (Option.some.inj h)
  · simp only [contains, Pages.contains, Bool.and_eq_true, decide_eq_true_eq]
    have hb : region.base = region.pages.base := rfl
    have hs : region.size = region.pages.size := rfl
    omega

/-! ### New regions -/

/-- A new region changes no look-up: what a table binds was made before. -/
theorem Registry.Matches.lookup?_add {a : Arena} {t : Table} {d : Directory}
    (h : Matches ⟨a, t⟩ d) (r : Region) (name : String) :
    t.lookup? (a.add r).1 name = t.lookup? a name := by
  have hlater := h.of_precedes (a.precedes_add r)
  apply Option.ext
  intro g
  rw [hlater.lookup?_eq_some_iff, h.lookup?_eq_some_iff]
  refine exists_congr fun b => exists_congr fun r' => and_congr_right fun hd => ?_
  obtain ⟨r'', hr'', -⟩ := h.inside hd
  rw [Arena.get?_add_of_lt a r (Arena.lt_of_region? hr'')]

/-! ### Attaching -/

namespace Linkage

/-- What an attachment does to a dispatch table. A batch with the stubs of `requests` was laid out as
`region`, which belongs to `unit`; the table and the regions before it are `s`, and `done` is what it
left. -/
structure Publishes (p : Platform) (saver : Address) (pending : List Stub) (requests : List Request)
    (s : Registry) (done : Attachment Table) (unit : LinkedUnit) (region : Region) : Prop where
  home : done.linkage.arena.get? unit.region = some region
  /-- Each stub is offered once, in the order of the batch. -/
  placed : region.methods.map Method.name = pending.map Stub.name
  distinct : (pending.map Stub.name).Nodup
  /-- A stub is bound if it has a name that resolved to nothing before. -/
  bound : unit.publication.bound = region.methods.filter (s.table.takes s.arena)
  /-- All others are rejected, for want of a name or because the name resolved before. -/
  rejected : unit.publication.rejected =
    (region.methods.filter fun m => !s.table.takes s.arena m).map fun m => (m, m.rejection)
  /-- A bound name leads to the code of the request that was taken under the name. -/
  found : ∀ stub ∈ pending, stub.name ∈ unit.publication.bound.map Method.name →
    ∃ r ∈ requests, r.name = stub.name ∧ Stub.ofRequest p saver r = .ok stub ∧
      ∃ g bytes, done.receiver.lookup? done.linkage.arena stub.name = some g ∧
        g.region = unit.region ∧ g.method.name = stub.name ∧
        g.method.descriptor = r.signature.descriptor p ∧
        region.addressOf? stub.name = some g.method.address ∧
        region.pages.read? (g.method.address - region.base) stub.size = some bytes ∧
        stub.code.linkInto? g.method.address (List.replicate stub.size 0) = some bytes ∧
        ∃ ret, Return.ofSlot? p r.signature.ret = some ret ∧
          bytes = (Stub.program (Stub.countSlots p .integer r.signature.params) ret r.address
            (Stub.saverOf saver r)).flatMap Item.linked
  /-- Nothing changes for any other name. -/
  other : ∀ name, name ∉ unit.publication.bound.map Method.name →
    done.receiver.lookup? done.linkage.arena name = s.table.lookup? s.arena name

/-- An attachment that makes a unit has laid out the batch and published its methods. -/
theorem attach_eq_unit {σ : Type} {l : Linkage} {sys : System} {b : Batch} {receiver : Receiver σ}
    {s : σ} {unit : LinkedUnit}
    (h : (l.attach sys (.batch b) receiver s).answer = .ok (some unit)) :
    ∃ region, Region.ofStubs sys b.settings b.pending = .ok region ∧
      (l.attach sys (.batch b) receiver s).linkage.arena = (l.arena.add region).1 ∧
      unit.region = (l.arena.add region).2 ∧
      (l.attach sys (.batch b) receiver s).receiver =
        (receiver.publish (l.arena.add region).1 unit.region region.methods s).1 ∧
      unit.publication =
        (receiver.publish (l.arena.add region).1 unit.region region.methods s).2 := by
  rcases l.attach_cases sys (.batch b) receiver s with
    ⟨-, hattach⟩ | ⟨b', hb, -, ⟨e, -, hattach⟩ | ⟨region, hregion, hattach⟩⟩
  · rw [hattach] at h
    cases h
  · rw [hattach] at h
    cases h
  · cases hb
    rw [hattach] at h ⊢
    cases h
    exact ⟨region, hregion, rfl, rfl, rfl, rfl⟩

section Publishes

variable {p : Platform} {settings : Settings} {b : Batch} {requests : List Request} {s : Registry}
  {d : Directory} {region : Region} {limit : Nat}

theorem names_methods
    (hplaced : List.Forall₂ (fun stub e => Region.Entry.Holds region.pages limit stub e) b.pending
      region.entries) : region.methods.map Method.name = b.pending.map Stub.name := by
  rw [← map_eq_of_forall₂ hplaced fun _ _ h => h.name, Region.methods, List.map_map]
  rfl

/-- Linked code of a request is its program with the addresses in place. -/
theorem linked_of_ofRequest {saver : Address} {r : Request} {stub : Stub} {origin : Nat}
    {field bytes : Bytes} (h : Stub.ofRequest p saver r = .ok stub)
    (hlink : stub.code.linkInto? origin field = some bytes) :
    stub.code.linkInto? origin (List.replicate stub.size 0) = some bytes ∧
      ∃ ret, Return.ofSlot? p r.signature.ret = some ret ∧
        bytes = (Stub.program (Stub.countSlots p .integer r.signature.params) ret r.address
          (Stub.saverOf saver r)).flatMap Item.linked := by
  obtain ⟨ret, hsupported, rfl⟩ := Stub.ofRequest_eq_ok_iff.1 h
  have hfield := Code.linkInto?_assemble _ origin (Code.length_of_linkInto? hlink).1
  cases hlink.symm.trans hfield
  exact ⟨Code.linkInto?_assemble _ _ List.length_replicate, ret, hsupported.result, rfl⟩

/-- Where the stub of a request lies in the region of its batch, and what lies there. -/
theorem exists_entry {stub : Stub} (hg : b.Gathers p settings requests)
    (hplaced : List.Forall₂ (fun stub e => Region.Entry.Holds region.pages limit stub e) b.pending
      region.entries) (hstub : stub ∈ b.pending) :
    ∃ r ∈ requests, r.name = stub.name ∧
      Stub.ofRequest p settings.saver r = .ok stub ∧
      ∃ e ∈ region.entries, e.name = stub.name ∧ e.descriptor = r.signature.descriptor p ∧
        ∃ bytes, region.pages.read? e.offset stub.size = some bytes ∧
          stub.code.linkInto? (region.base + e.offset) (List.replicate stub.size 0) = some bytes ∧
          ∃ ret, Return.ofSlot? p r.signature.ret = some ret ∧
            bytes = (Stub.program (Stub.countSlots p .integer r.signature.params) ret r.address
              (Stub.saverOf settings.saver r)).flatMap Item.linked := by
  obtain ⟨r, hr, hrequest⟩ := exists_of_forall₂_left hg.pending.flip hstub
  obtain ⟨e, he, hholds⟩ := exists_of_forall₂_left hplaced hstub
  obtain ⟨field, bytes, hlink, hread⟩ := hholds.loaded
  obtain ⟨hzeros, hprogram⟩ := linked_of_ofRequest hrequest hlink
  have hdescriptor : stub.descriptor = r.signature.descriptor p := by
    obtain ⟨ret, -, rfl⟩ := Stub.ofRequest_eq_ok_iff.1 hrequest
    rfl
  rw [hholds.size] at hread
  exact ⟨r, hr, (Stub.name_of_ofRequest hrequest).symm, hrequest, e, he, hholds.name,
    hholds.descriptor.trans hdescriptor, bytes, hread, hzeros, hprogram⟩

/-- What a reachable batch publishes to a reachable table. -/
theorem publishes_of_gathers {l : Linkage} {sys : System} {unit : LinkedUnit}
    (hg : b.Gathers p settings requests) (hm : s.Matches d) (hl : l.arena = s.arena)
    (h : (l.attach sys (.batch b) .table s.table).answer = .ok (some unit)) :
    ∃ region, Publishes p settings.saver b.pending requests s
      (l.attach sys (.batch b) .table s.table) unit region := by
  obtain ⟨region, hregion, harena, hunit, hreceiver, hpublication⟩ := attach_eq_unit h
  rw [hl] at harena hunit hreceiver hpublication
  obtain ⟨hbase, limit, hlimit, hplaced⟩ := Region.ofStubs_holds hregion
  have hnames := names_methods hplaced
  have hdistinct : (b.pending.map Stub.name).Nodup := by
    rw [hg.names_pending]
    exact hg.nodup
  have hhome : (s.arena.add region).1.get? unit.region = some region := by
    rw [hunit]
    exact s.arena.get?_add_self region
  have hcomp := forall₂_comp hg.pending hplaced
  have hsensible : ∀ m ∈ region.methods, m.name ≠ "" →
      m.Sensible (s.arena.add region).1 unit.region := by
    intro m hm hname
    obtain ⟨e, he, rfl⟩ := List.mem_map.1 hm
    obtain ⟨r, -, stub, hstub, hholds⟩ := exists_of_forall₂_left hcomp.flip he
    exact Region.sensible_of_holds hstub hholds hlimit hbase hhome hname
  have hlater := hm.of_precedes (s.arena.precedes_add region)
  obtain ⟨hreports, -⟩ := reports_publish hlater (hnames ▸ hdistinct) hsensible
  rw [← hreceiver, ← hpublication] at hreports
  have htakes : s.table.takes (s.arena.add region).1 = s.table.takes s.arena := by
    funext m
    rw [Table.takes, Table.takes, hm.lookup?_add]
  refine ⟨region, ?_, hnames, hdistinct, ?_, ?_, ?_, ?_⟩
  · rw [harena, hhome]
  · rw [hreports.bound, htakes]
  · rw [hreports.rejected, htakes]
  · intro stub hstub hbound
    obtain ⟨r, hr, hrname, hrequest, e, he, hename, hdescriptor, bytes, hread, hcode⟩ :=
      exists_entry hg hplaced hstub
    obtain ⟨m, hm', hname⟩ := List.mem_map.1 hbound
    have hentries : (region.entries.map Region.Entry.name).Nodup := by
      rwa [map_eq_of_forall₂ hplaced fun _ _ h => h.name]
    -- The method of that name is the one that was made from the stub's own entry.
    have hmethod : m = ⟨e.name, e.descriptor, region.base + e.offset⟩ := by
      have hmem := hm'
      rw [hreports.bound, List.mem_filter] at hmem
      obtain ⟨e', he', rfl⟩ := List.mem_map.1 hmem.1
      rw [List.inj_on_of_nodup_map hentries he' he (hname.trans hename.symm)]
    obtain ⟨g, hg', hgm, hgr⟩ := hreports.lookup_bound m hm'
    rw [hmethod] at hgm
    have haddress : g.method.address = region.base + e.offset := by rw [hgm]
    refine ⟨r, hr, hrname, hrequest, g, bytes, ?_, hgr, ?_, ?_, ?_, ?_, ?_⟩
    · rw [harena, ← hname, hg']
    · rw [hgm, hename]
    · rw [hgm, hdescriptor]
    · rw [haddress, Region.addressOf?, ← hename, Region.entry?_of_mem hentries he, Option.map_some]
    · rw [haddress, Nat.add_sub_cancel_left, hread]
    · rw [haddress]
      exact hcode
  · intro name hname
    rw [harena, hreports.lookup_other name, hm.lookup?_add]
    intro m hm heq
    exact hname (List.mem_map.2 ⟨m, hm, heq⟩)

end Publishes

/-- **What an attachment publishes.** Whatever a compiler was asked for before and whatever happened to
the table and its regions: if attaching the compiler's batch to the table makes a unit, then every stub
of the batch is bound or rejected, for a reason of its own; the bound names lead to the code of their
requests; and nothing changes for other names. -/
theorem attach_publishes (p : Platform) (settings : Settings) (compiling : List Batch.Event)
    (happening : List Registry.Event) (units : UnitIndex) (next : UnitId) {sys : System}
    {unit : LinkedUnit}
    (h : (attach ⟨(Registry.history happening).1.arena, units, next⟩ sys
      (.batch (Batch.history p settings compiling).1) .table
      (Registry.history happening).1.table).answer = .ok (some unit)) :
    ∃ region, Publishes p settings.saver (Batch.history p settings compiling).1.pending
      (Batch.history p settings compiling).2 (Registry.history happening).1
      (attach ⟨(Registry.history happening).1.arena, units, next⟩ sys
        (.batch (Batch.history p settings compiling).1) .table
        (Registry.history happening).1.table) unit region :=
  publishes_of_gathers (Batch.gathers_history p settings compiling)
    (Registry.matches_history happening) rfl h

/-- A function that takes and gives nothing. -/
def plainRequest (name : String) : Request := ⟨name, ⟨[], ⟨.void, false⟩, .default⟩, 0x4000, false⟩

/-- Three functions, one of which has no name. -/
def threeRequests : List Batch.Event :=
  [.compile (plainRequest "f"), .compile (plainRequest "g"), .compile (plainRequest "")]

/-- A batch of them on small pages. -/
def threeStubs : Batch × List Request :=
  Batch.history .host ⟨true, 16, 0x5000, some 64⟩ threeRequests

/-- A table in which one of the three names resolves. -/
def oneBinding : List Registry.Event :=
  [.add ⟨⟨0x1000, [0], .executable⟩, 1, []⟩, .bind ⟨"f", "()V", 0x1000⟩ 0]

/-- The batch attached to the table. -/
def attachment : Attachment Table :=
  attach ⟨(Registry.history oneBinding).1.arena, .empty, 1⟩ (.granting 4096 fun _ => some 0x10000)
    (.batch threeStubs.1) .table (Registry.history oneBinding).1.table

theorem eq_ok_some {answer : Except CommitFailure (Option LinkedUnit)} {unit : LinkedUnit}
    (h : answer.toOption.join = some unit) : answer = .ok (some unit) := by
  rcases answer with e | _ | unit' <;> cases h
  rfl

theorem attach_publishes_g :
    ∃ unit region, Publishes .host 0x5000 threeStubs.1.pending threeStubs.2
        (Registry.history oneBinding).1 attachment unit region ∧
      unit.publication.bound.map Method.name = ["g"] ∧
      unit.publication.rejected.map Prod.snd = [.duplicate "f", .malformed "" "empty name"] := by
  have hnames : attachment.answer.toOption.join.map (fun unit =>
      (unit.publication.bound.map Method.name, unit.publication.rejected.map Prod.snd)) =
      some (["g"], [.duplicate "f", .malformed "" "empty name"]) := by decide +kernel
  obtain ⟨unit, hunit, hpair⟩ := Option.map_eq_some_iff.1 hnames
  obtain ⟨hbound, hrejected⟩ := Prod.mk.inj hpair
  have hanswer : attachment.answer = .ok (some unit) := eq_ok_some hunit
  obtain ⟨region, hpublishes⟩ := attach_publishes .host ⟨true, 16, 0x5000, some 64⟩
    threeRequests oneBinding .empty 1 hanswer
  exact ⟨unit, region, hpublishes, hbound, hrejected⟩

end Linkage

end Trampoline
