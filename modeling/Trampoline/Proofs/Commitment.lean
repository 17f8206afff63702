import Trampoline.Linkage.Dialogue
import Trampoline.Linkage.Lemmas
import Trampoline.Proofs.Attachment
import Trampoline.Proofs.Selection
import Trampoline.Proofs.Sizing

/-!
# How commitments end

A batch can fail for want of memory, for a name that it uses twice, or because the system does not let its
block be executed, in this order. Where an attachment fails, the batch is lost and nothing else happened.

* `Filling.Fits.foldlM_cases`: stubs are put into a block until a name is repeated;
* `ofStubs_eq_judge`, `Region.Ends`, `Region.Outcome`, `outcome_ofStubs`: how the layout of a batch ends;
* `Linkage.AllOrNothing`, `allOrNothing_attach`: what attachments leave;
* `Linkage.commitments`: both, for every batch, compiler and receiver.
-/

namespace Trampoline

namespace Region

/-! ### Filling a block -/

section Fits

variable {origin size alignment : Nat} {f : Filling} {stubs : List Stub}

/-- Where there is room, stubs are put into the block up to the first whose name stood there before. The
induction is on the stubs; what carries it is that the names in the block are distinct so far. -/
theorem Filling.Fits.foldlM_cases (halign : 0 < alignment) (h : f.Fits origin size alignment stubs)
    (hstubs : ∀ s ∈ stubs, ∃ items, s.code = .assemble items)
    (hnodup : (f.entries.map Entry.name).Nodup) :
    ((f.entries.map Entry.name ++ stubs.map Stub.name).Nodup ∧
        ∃ f', stubs.foldlM (Filling.add alignment) f = .ok f') ∨
      ∃ name, FirstRepeat (f.entries.map Entry.name ++ stubs.map Stub.name) name ∧
        stubs.foldlM (Filling.add alignment) f = .error (.build (.duplicate name)) := by
  induction stubs generalizing f with
  | nil =>
    rw [List.map_nil, List.append_nil]
    exact .inl ⟨hnodup, f, rfl⟩
  | cons s stubs ih =>
    obtain ⟨hs, hstubs⟩ := List.forall_mem_cons.1 hstubs
    rw [List.foldlM_cons, List.map_cons]
    rcases h.add_cases halign hs with ⟨hnew, f₁, hadd⟩ | ⟨hold, hadd⟩
    · have hnames : f₁.entries.map Entry.name = f.entries.map Entry.name ++ [s.name] := by
        obtain ⟨-, -, -, -, -, -, -, rfl⟩ := of_add hadd
        rw [List.map_append, List.map_singleton]
      have hnodup₁ : (f₁.entries.map Entry.name).Nodup := by
        rw [hnames, ← List.concat_eq_append]
        exact hnodup.concat hnew
      have hrest := ih (h.add halign hadd) hstubs hnodup₁
      rw [hnames, List.append_assoc, List.singleton_append] at hrest
      rw [hadd]
      exact hrest
    · rw [hadd]
      exact .inr ⟨s.name, ⟨_, _, rfl, hnodup, hold⟩, rfl⟩

end Fits

/-! ### How the layout of a batch ends -/

/-- There is no block for a batch: it asks for none, or the pages are not to be had. -/
def Exhausted (sys : System) (settings : Settings) (stubs : List Stub) (count : Nat) : Prop :=
  stubs = [] ∨ Pages.allocate? sys.map count (settings.effectivePageSize sys) = none

section Commit

variable {sys : System} {settings : Settings} {stubs : List Stub} {alignment room count : Nat}

/-- A batch without stubs has no pages. -/
theorem exhausted_iff :
    Exhausted sys settings stubs (ceilDiv (roomFor alignment stubs) (settings.effectivePageSize sys)) ↔
      Pages.allocate? sys.map (ceilDiv (roomFor alignment stubs) (settings.effectivePageSize sys))
        (settings.effectivePageSize sys) = none := by
  refine or_iff_right_of_imp ?_
  rintro rfl
  have hcount : ceilDiv (roomFor alignment []) (settings.effectivePageSize sys) = 0 :=
    Nat.le_zero.1 ((ceilDiv_le_iff (settings.effectivePageSize_pos sys)).2 (Nat.zero_le _))
  rw [hcount]
  exact if_pos (.inl (Nat.zero_mul _))

/-- What the system says of a region that a consenting one lets be executed. -/
def judge (sys : System) (r : Region) : Except CommitFailure Region :=
  match sys.refusal? r.base r.size with
  | some reason => .error (.build (.protection reason))
  | none => .ok r

theorem Filling.finish_eq_judge (sys : System) (pageSize : Nat) (f : Filling) :
    f.finish sys pageSize = (f.finish sys.consenting pageSize).bind (judge sys) := by
  let r : Region := ⟨f.pages.freeze, pageSize, f.entries⟩
  have hconsenting : f.finish sys.consenting pageSize = .ok r := finish_eq_ok_iff.2 ⟨rfl, rfl⟩
  rw [hconsenting, Except.bind, judge]
  -- The region is where its pages are, so both ask the system about one block.
  cases hanswer : sys.refusal? r.base r.size with
  | some reason => exact finish_eq_error_iff.2 ⟨reason, hanswer, rfl⟩
  | none => exact finish_eq_ok_iff.2 ⟨hanswer, rfl⟩

/-- A batch has the region that it has on a consenting system, if the system lets it be executed. -/
theorem ofStubs_eq_judge (sys : System) (settings : Settings) (stubs : List Stub) :
    ofStubs sys settings stubs = (ofStubs sys.consenting settings stubs).bind (judge sys) := by
  have hpage : settings.effectivePageSize sys.consenting = settings.effectivePageSize sys := rfl
  have hmap : sys.consenting.map = sys.map := rfl
  unfold ofStubs
  rw [hpage, hmap]
  split
  · rfl
  simp only
  split
  · rfl
  split
  · rfl
  split
  · rfl
  split
  · rfl
  · exact Filling.finish_eq_judge sys _ _

/-- How laying out a batch ends on a system that consents, if its sizes are words. -/
theorem ofStubs_ends (hstubs : ∀ s ∈ stubs, ∃ items, s.code = .assemble items)
    (halign : settings.alignment? = some alignment) (hroom : roomFor alignment stubs < wordLimit)
    (hcount : count = ceilDiv (roomFor alignment stubs) (settings.effectivePageSize sys)) :
    (Exhausted sys settings stubs count ∧ ofStubs sys.consenting settings stubs =
        .error (.build (.outOfMemory (roomFor alignment stubs) count))) ∨
      ¬ Exhausted sys settings stubs count ∧
        (((stubs.map Stub.name).Nodup ∧ ∃ r, ofStubs sys.consenting settings stubs = .ok r) ∨
          ∃ name, FirstRepeat (stubs.map Stub.name) name ∧
            ofStubs sys.consenting settings stubs = .error (.build (.duplicate name))) := by
  subst hcount
  rw [exhausted_iff]
  rcases ofStubs_cases sys.consenting settings stubs with
    ⟨hnone | ⟨alignment', halign', hover⟩, -⟩ | ⟨alignment', halign', -, ⟨hnone, h⟩ | ⟨pages, hpages, hfill⟩⟩
  · cases halign.symm.trans hnone
  · cases halign.symm.trans halign'
    exact absurd hover (Nat.not_le.2 hroom)
  · cases halign.symm.trans halign'
    exact .inl ⟨hnone, h⟩
  · cases halign.symm.trans halign'
    refine .inr ⟨fun hnone => ?_, ?_⟩
    · cases hpages.symm.trans hnone
    have hfits := Filling.fits_of_allocate? (settings.effectivePageSize_pos sys) hpages
    have hcases := hfits.foldlM_cases (alignment_pos halign) hstubs List.nodup_nil
    rw [List.map_nil, List.nil_append] at hcases
    rcases hcases with ⟨hnodup, f', hok⟩ | ⟨name, hrepeat, herror⟩
    · rcases hfill with ⟨e, he, -⟩ | ⟨filled, -, h⟩
      · cases hok.symm.trans he
      · exact .inl ⟨hnodup, _, h.trans (Filling.finish_eq_ok_iff.2 ⟨rfl, rfl⟩)⟩
    · rcases hfill with ⟨e, he, h⟩ | ⟨filled, hfilled, -⟩
      · cases herror.symm.trans he
        exact .inr ⟨name, hrepeat, h⟩
      · cases herror.symm.trans hfilled

/-- How a commitment ends: without memory, with a name that is repeated, without leave to execute the block,
or with a region. Each takes that nothing before it holds. -/
inductive Ends (sys : System) (settings : Settings) (stubs : List Stub) (room count : Nat) :
    Except CommitFailure Region → Prop
  | exhausted (h : Exhausted sys settings stubs count) :
    Ends sys settings stubs room count (.error (.build (.outOfMemory room count)))
  | duplicate (h : ¬ Exhausted sys settings stubs count) {name : String}
    (hrepeat : FirstRepeat (stubs.map Stub.name) name) :
    Ends sys settings stubs room count (.error (.build (.duplicate name)))
  | refused (h : ¬ Exhausted sys settings stubs count) (hnodup : (stubs.map Stub.name).Nodup)
    {r : Region} (hr : ofStubs sys.consenting settings stubs = .ok r) {reason : String}
    (hreason : sys.refusal? r.base r.size = some reason) :
    Ends sys settings stubs room count (.error (.build (.protection reason)))
  | ok (h : ¬ Exhausted sys settings stubs count) (hnodup : (stubs.map Stub.name).Nodup)
    {r : Region} (hr : ofStubs sys.consenting settings stubs = .ok r)
    (hconsent : sys.refusal? r.base r.size = none) : Ends sys settings stubs room count (.ok r)

theorem ends_ofStubs (hstubs : ∀ s ∈ stubs, ∃ items, s.code = .assemble items)
    (halign : settings.alignment? = some alignment) (hroom : roomFor alignment stubs < wordLimit)
    (hcount : count = ceilDiv (roomFor alignment stubs) (settings.effectivePageSize sys)) :
    Ends sys settings stubs (roomFor alignment stubs) count (ofStubs sys settings stubs) := by
  rw [ofStubs_eq_judge]
  rcases ofStubs_ends hstubs halign hroom hcount with
    ⟨h, hofStubs⟩ | ⟨h, ⟨hnodup, r, hofStubs⟩ | ⟨name, hrepeat, hofStubs⟩⟩
  · rw [hofStubs]
    exact .exhausted h
  · rw [hofStubs, Except.bind, judge]
    cases hanswer : sys.refusal? r.base r.size with
    | none => exact .ok h hnodup hofStubs hanswer
    | some reason => exact .refused h hnodup hofStubs hanswer
  · rw [hofStubs]
    exact .duplicate h hrepeat

theorem Ends.unique {end₁ end₂ : Except CommitFailure Region}
    (h₁ : Ends sys settings stubs room count end₁) (h₂ : Ends sys settings stubs room count end₂) :
    end₁ = end₂ := by
  cases h₁ with
  | exhausted h =>
    cases h₂ with
    | exhausted => rfl
    | _ => contradiction
  | duplicate h hrepeat =>
    cases h₂ with
    | exhausted => contradiction
    | duplicate _ hrepeat' => rw [hrepeat.unique hrepeat']
    | refused _ hnodup => exact absurd hnodup hrepeat.not_nodup
    | ok _ hnodup => exact absurd hnodup hrepeat.not_nodup
  | refused h hnodup hr hreason =>
    cases h₂ with
    | exhausted => contradiction
    | duplicate _ hrepeat => exact absurd hnodup hrepeat.not_nodup
    | refused _ _ hr' hreason' =>
      cases hr.symm.trans hr'
      cases hreason.symm.trans hreason'
      rfl
    | ok _ _ hr' hconsent =>
      cases hr.symm.trans hr'
      cases hreason.symm.trans hconsent
  | ok h hnodup hr hconsent =>
    cases h₂ with
    | exhausted => contradiction
    | duplicate _ hrepeat => exact absurd hnodup hrepeat.not_nodup
    | refused _ _ hr' hreason =>
      cases hr.symm.trans hr'
      cases hreason.symm.trans hconsent
    | ok _ _ hr' => exact hr.symm.trans hr'

/-- The answers of a commitment, and when each of them is given. -/
structure Outcome (sys : System) (settings : Settings) (stubs : List Stub) (room count : Nat) : Prop where
  /-- It is out of memory for a batch without stubs, and where the pages are not to be had, -/
  outOfMemory : ofStubs sys settings stubs = .error (.build (.outOfMemory room count)) ↔
    Exhausted sys settings stubs count
  /-- and says how much it asked for. -/
  numbers : ∀ bytes pages, ofStubs sys settings stubs = .error (.build (.outOfMemory bytes pages)) →
    bytes = room ∧ pages = count
  /-- Otherwise the first name that is repeated is a duplicate, -/
  duplicate : ∀ name, ofStubs sys settings stubs = .error (.build (.duplicate name)) ↔
    ¬ Exhausted sys settings stubs count ∧ FirstRepeat (stubs.map Stub.name) name
  /-- if any is. -/
  repeated : (∃ name, ofStubs sys settings stubs = .error (.build (.duplicate name))) ↔
    ¬ Exhausted sys settings stubs count ∧ ¬ (stubs.map Stub.name).Nodup
  /-- Otherwise the batch is laid out, and it has a region if the system lets it be executed. -/
  refused : ∀ reason, ofStubs sys settings stubs = .error (.build (.protection reason)) ↔
    ¬ Exhausted sys settings stubs count ∧ (stubs.map Stub.name).Nodup ∧
      ∃ r, ofStubs sys.consenting settings stubs = .ok r ∧ sys.refusal? r.base r.size = some reason
  ok : ∀ r, ofStubs sys settings stubs = .ok r ↔
    ¬ Exhausted sys settings stubs count ∧ (stubs.map Stub.name).Nodup ∧
      ofStubs sys.consenting settings stubs = .ok r ∧ sys.refusal? r.base r.size = none
  /-- A system that consents leaves no other way to fail. -/
  consent : (∀ base size, sys.refusal? base size = none) →
    ((∃ r, ofStubs sys settings stubs = .ok r) ↔
      ¬ Exhausted sys settings stubs count ∧ (stubs.map Stub.name).Nodup)

theorem outcome_of_ends (h : Ends sys settings stubs room count (ofStubs sys settings stubs)) :
    Outcome sys settings stubs room count := by
  have hiff {answer : Except CommitFailure Region} :
      ofStubs sys settings stubs = answer ↔ Ends sys settings stubs room count answer :=
    ⟨fun hanswer => hanswer ▸ h, h.unique⟩
  constructor
  case outOfMemory =>
    rw [hiff]
    refine ⟨fun hends => ?_, .exhausted⟩
    cases hends with
    | exhausted hpages => exact hpages
  case numbers =>
    intro bytes pages hanswer
    cases hiff.1 hanswer
    exact ⟨rfl, rfl⟩
  case duplicate =>
    intro name
    rw [hiff]
    constructor
    · intro hends
      cases hends with
      | duplicate hpages hrepeat => exact ⟨hpages, hrepeat⟩
    · rintro ⟨hpages, hrepeat⟩
      exact .duplicate hpages hrepeat
  case repeated =>
    constructor
    · rintro ⟨name, hanswer⟩
      cases hiff.1 hanswer with
      | duplicate hpages hrepeat => exact ⟨hpages, hrepeat.not_nodup⟩
    · rintro ⟨hpages, hrepeated⟩
      generalize ofStubs sys settings stubs = answer at h
      cases h with
      | duplicate _ _ => exact ⟨_, rfl⟩
      | _ => contradiction
  case refused =>
    intro reason
    rw [hiff]
    constructor
    · intro hends
      cases hends with
      | refused hpages hnodup hr hreason => exact ⟨hpages, hnodup, _, hr, hreason⟩
    · rintro ⟨hpages, hnodup, r, hr, hreason⟩
      exact .refused hpages hnodup hr hreason
  case ok =>
    intro r
    rw [hiff]
    constructor
    · intro hends
      cases hends with
      | ok hpages hnodup hr hconsent => exact ⟨hpages, hnodup, hr, hconsent⟩
    · rintro ⟨hpages, hnodup, hr, hconsent⟩
      exact .ok hpages hnodup hr hconsent
  case consent =>
    intro hconsent
    constructor
    · rintro ⟨r, hanswer⟩
      cases hiff.1 hanswer with
      | ok hpages hnodup _ _ => exact ⟨hpages, hnodup⟩
    · rintro ⟨hpages, hnodup⟩
      generalize ofStubs sys settings stubs = answer at h
      cases h with
      | exhausted _ => contradiction
      | duplicate _ hrepeat => exact absurd hnodup hrepeat.not_nodup
      | refused _ _ _ hreason => cases (hconsent _ _).symm.trans hreason
      | ok _ _ _ _ => exact ⟨_, rfl⟩

/-- How the layout of a batch ends whose sizes are words. -/
theorem outcome_ofStubs (sys : System) (settings : Settings) (stubs : List Stub)
    (hstubs : ∀ s ∈ stubs, ∃ items, s.code = .assemble items) (hsize : ¬ (2 ^ 63 < settings.stubAlignment ∨
      wordLimit ≤ (stubs.map fun s => s.size + leastPowerOfTwo settings.stubAlignment).sum)) :
    Outcome sys settings stubs (stubs.map fun s => s.size + leastPowerOfTwo settings.stubAlignment).sum
      (ceilDiv (stubs.map fun s => s.size + leastPowerOfTwo settings.stubAlignment).sum
        (settings.effectivePageSize sys)) := by
  rw [← roomFor_eq_sum] at hsize ⊢
  rw [not_or] at hsize
  have halign := settings.alignment?_eq
  rw [if_neg hsize.1] at halign
  exact outcome_of_ends (ends_ofStubs hstubs halign (Nat.not_le.1 hsize.2) rfl)

end Commit

end Region

/-! ### What attachments leave -/

namespace Linkage

variable {σ : Type} {l : Linkage} {sys : System} {c : Compiler} {receiver : Receiver σ} {s : σ}

/-- What an attachment does to a linkage, a compiler and a receiver whose offers are recorded: all or
nothing. -/
structure AllOrNothing (l : Linkage) (sys : System) (c : Compiler) (receiver : Receiver σ) (s : σ)
    (done : Attachment (σ × List Receiver.Offer)) : Prop where
  /-- Without stubs nothing happens. -/
  idle : c.pending = [] → done = ⟨l, c, (s, []), .ok none⟩
  /-- It fails only as the layout of the stubs does, be it for want of a word to hold a size. -/
  fails : ∀ e, done.answer = .error e ↔
    ∃ b, c = .batch b ∧ b.pending ≠ [] ∧ Region.ofStubs sys b.settings b.pending = .error e
  /-- Then the linkage is as it was, the receiver was offered nothing, and the compiler has a new batch:
  no stubs and no names. -/
  lost : ∀ e, done.answer = .error e → ∃ b, c = .batch b ∧
    done = ⟨l, .batch (.new b.platform b.settings), (s, []), .error e⟩
  /-- Otherwise the region is a unit under the next number, and each stub was offered once. -/
  linked : ∀ b r, c = .batch b → b.pending ≠ [] → Region.ofStubs sys b.settings b.pending = .ok r →
    ∃ s' offers publication, offers.map (fun offer => offer.method.name) = b.pending.map Stub.name ∧
      done = ⟨⟨(l.arena.add r).1, l.units.insert l.nextUnit (l.arena.add r).2, l.nextUnit + 1⟩,
        .batch (.new b.platform b.settings), (s', offers),
        .ok (some ⟨l.nextUnit, (l.arena.add r).2, publication⟩)⟩

/-- Each stub of a batch is offered once when its region is linked. -/
theorem link_recording (l : Linkage) (receiver : Receiver σ) (s : σ) {b : Batch} {r : Region}
    (h : Region.ofStubs sys b.settings b.pending = .ok r) :
    ∃ s' offers publication, offers.map (fun offer => offer.method.name) = b.pending.map Stub.name ∧
      l.link r receiver.recording (s, []) =
        (⟨(l.arena.add r).1, l.units.insert l.nextUnit (l.arena.add r).2, l.nextUnit + 1⟩, (s', offers),
          ⟨l.nextUnit, (l.arena.add r).2, publication⟩) := by
  obtain ⟨-, limit, -, hplaced⟩ := Region.ofStubs_holds h
  obtain ⟨offers, hoffers, hpublish⟩ :=
    receiver.publish_recording (l.arena.add r).1 (l.arena.add r).2 r.methods s []
  refine ⟨(receiver.publish (l.arena.add r).1 (l.arena.add r).2 r.methods s).1, offers,
    (receiver.publish (l.arena.add r).1 (l.arena.add r).2 r.methods s).2, ?_, ?_⟩
  · rw [← names_methods hplaced, ← hoffers, List.map_map]
    rfl
  · simp only [link, hpublish, List.nil_append]

theorem allOrNothing_attach (l : Linkage) (sys : System) (c : Compiler) (receiver : Receiver σ) (s : σ) :
    AllOrNothing l sys c receiver s (l.attach sys c receiver.recording (s, [])) := by
  rcases l.attach_cases sys c receiver.recording (s, []) with
    ⟨hempty, hdone⟩ | ⟨b, rfl, hpending, ⟨e, hcommit, hdone⟩ | ⟨r, hcommit, hdone⟩⟩
  · have hno {b : Batch} (hc : c = .batch b) : b.pending = [] := by
      subst hc
      exact hempty
    rw [hdone]
    refine ⟨fun _ => rfl, fun e => ⟨fun h => ?_, ?_⟩, fun e h => ?_, fun b r hc hpending => ?_⟩
    · cases h
    · rintro ⟨b, hc, hpending, -⟩
      exact absurd (hno hc) hpending
    · cases h
    · exact absurd (hno hc) hpending
  · rw [hdone]
    refine ⟨fun hempty => absurd hempty hpending, fun e' => ⟨fun h => ?_, ?_⟩, fun e' h => ?_,
      fun b' r hb _ hok => ?_⟩
    · cases h
      exact ⟨b, rfl, hpending, hcommit⟩
    · rintro ⟨b', hb, -, hcommit'⟩
      cases hb
      cases hcommit.symm.trans hcommit'
      rfl
    · cases h
      exact ⟨b, rfl, rfl⟩
    · cases hb
      cases hcommit.symm.trans hok
  · obtain ⟨s', offers, publication, hnames, hlink⟩ := link_recording l receiver s hcommit
    rw [hdone, hlink]
    refine ⟨fun hempty => absurd hempty hpending, fun e => ⟨fun h => ?_, ?_⟩, fun e h => ?_,
      fun b' r' hb _ hok => ?_⟩
    · cases h
    · rintro ⟨b', hb, -, hcommit'⟩
      cases hb
      cases hcommit.symm.trans hcommit'
    · cases h
    · cases hb
      cases hcommit.symm.trans hok
      exact ⟨s', offers, publication, hnames, rfl⟩

/-- **Commitments and attachments end in one way.** A batch whose sizes are words, and whose code was put
together from sequences as all code is, has a region unless memory, a name or the system stands against it,
in this order. Any attachment at all links every stub of a batch or none, and where it fails only the batch
is lost. -/
theorem commitments :
    (∀ (sys : System) (settings : Settings) (stubs : List Stub),
      (∀ s ∈ stubs, ∃ items, s.code = .assemble items) →
      let room := (stubs.map fun s => s.size + leastPowerOfTwo settings.stubAlignment).sum
      ¬ (2 ^ 63 < settings.stubAlignment ∨ wordLimit ≤ room) →
        Region.Outcome sys settings stubs room (ceilDiv room (settings.effectivePageSize sys))) ∧
    ∀ (σ : Type) (l : Linkage) (sys : System) (c : Compiler) (receiver : Receiver σ) (s : σ),
      AllOrNothing l sys c receiver s (l.attach sys c receiver.recording (s, [])) :=
  ⟨Region.outcome_ofStubs, fun _ => allOrNothing_attach⟩

/-- Two stubs and the same two once more: the name of the first is a duplicate, and an attachment leaves
nothing but a new batch. -/
theorem commitments_of_repeated :
    let sys : System := .granting 4096 fun _ => some 0x10000
    let stubs := Region.halvingStubs ++ Region.halvingStubs
    let c : Compiler := .batch ⟨.host, Region.halvingSettings, stubs, ["half", "idle"]⟩
    Region.ofStubs sys Region.halvingSettings stubs = .error (.build (.duplicate "idle")) ∧
      Linkage.new.attach sys c Receiver.table.recording (.empty, []) =
        ⟨.new, .new .host Region.halvingSettings, (.empty, []), .error (.build (.duplicate "idle"))⟩ := by
  intro sys stubs c
  have hcode : ∀ s ∈ stubs, ∃ items, s.code = .assemble items := fun s hs =>
    (Region.emitted_halvingStubs s ((List.mem_append.1 hs).elim id id)).code_eq
  have hroom : (stubs.map fun s =>
      s.size + leastPowerOfTwo Region.halvingSettings.stubAlignment).sum = 192 := by decide +kernel
  have houtcome := commitments.1 sys Region.halvingSettings stubs hcode
  have hcount : ceilDiv 192 (Region.halvingSettings.effectivePageSize sys) = 3 := by decide +kernel
  simp only [hroom, hcount] at houtcome
  have hnames : stubs.map Stub.name = ["idle", "half"] ++ "idle" :: ["half"] := by decide +kernel
  have hstubs : stubs ≠ [] := by
    intro hnil
    rw [hnil] at hnames
    cases hnames
  have hpages : ¬ Region.Exhausted sys Region.halvingSettings stubs 3 := by
    rintro (hnil | hnone)
    · exact hstubs hnil
    · cases hnone
  have hcommit := ((houtcome (by decide)).duplicate "idle").2 ⟨hpages, _, _, hnames, by decide, by decide⟩
  refine ⟨hcommit, ?_⟩
  have hattach := commitments.2 Table Linkage.new sys c Receiver.table .empty
  obtain ⟨b, hb, hdone⟩ := hattach.lost _ ((hattach.fails _).2 ⟨_, rfl, hstubs, hcommit⟩)
  obtain rfl := Compiler.batch.inj hb
  exact hdone

end Linkage

end Trampoline
