import Mathlib.Data.List.Induction
import Trampoline.Linkage.Dialogue
import Trampoline.Proofs.Publication
import Trampoline.Proofs.Refusals

/-!
# The selected compiler

A platform without stubs, or settings that switch them off, select a compiler that refuses everything. It
is made apart from the compiler that gathers batches, which on such a platform or under such settings
refuses everything by itself.

* `publish_recording`, `attach_recording`: a record of the offers changes nothing else;
* `Refuses`, `select_cases`: why no stubs are made, and what is selected then;
* `replies_of_stays`: a compiler that no question changes;
* `ask_refusing`, `ask_new_of_refuses`: the two compilers, one question at a time;
* `replies_select`: what is seen of the selected compiler.
-/

namespace Trampoline

/-- A receiver that keeps a record takes and refuses what it did without one, and the record has every
method that was offered, in order. -/
theorem Receiver.publish_recording {σ : Type} (r : Receiver σ) (a : Arena) (region : RegionId)
    (ms : List Method) (s : σ) (offers : List Offer) :
    ∃ more : List Offer, more.map Offer.method = ms ∧
      r.recording.publish a region ms (s, offers) =
        (((r.publish a region ms s).1, offers ++ more), (r.publish a region ms s).2) := by
  induction ms using List.reverseRecOn with
  | nil => exact ⟨[], rfl, by rw [List.append_nil]; rfl⟩
  | append_singleton ms m ih =>
    obtain ⟨more, hmethods, hpublish⟩ := ih
    let answered := r.bind a (r.publish a region ms s).1 m region
    refine ⟨more ++ [⟨a, m, region, answered.2⟩], by rw [List.map_append, hmethods]; rfl, ?_⟩
    rw [publish_append_singleton, publish_append_singleton, hpublish, ← List.append_assoc]
    rfl

/-- With a record or without one, an attachment comes to the same. -/
theorem Linkage.attach_recording {σ : Type} (l : Linkage) (sys : System) (c : Compiler)
    (receiver : Receiver σ) (s : σ) :
    ∃ offers, l.attach sys c receiver.recording (s, []) =
      ⟨(l.attach sys c receiver s).linkage, (l.attach sys c receiver s).compiler,
        ((l.attach sys c receiver s).receiver, offers), (l.attach sys c receiver s).answer⟩ := by
  unfold attach
  rcases c.commit sys with ⟨c', _ | e | r⟩
  · exact ⟨[], rfl⟩
  · exact ⟨[], rfl⟩
  · obtain ⟨more, -, hpublish⟩ :=
      receiver.publish_recording (l.arena.add r).1 (l.arena.add r).2 r.methods s []
    exact ⟨more, by simp only [link, hpublish, List.nil_append]⟩

/-- Why no stubs are made for a platform under some settings; the switch comes first. -/
inductive Refuses (p : Platform) (settings : Settings) : Refusal → Prop
  | disabled (h : settings.enabled = false) : Refuses p settings .disabled
  | platform (henabled : settings.enabled = true) (h : p.isSysV = false) :
    Refuses p settings (.platform p)

variable {p : Platform} {settings : Settings} {reason : Refusal}

/-! ### A batch that takes nothing -/

namespace Batch

theorem callShape_of_refuses (h : Refuses p settings reason) (s : Signature) :
    (new p settings).callShape s = .error reason := by
  cases h with
  | disabled h => exact if_neg (by rw [new, h]; decide)
  | platform henabled h =>
    have hshape : s.callShape p = .error (.platform p) := if_pos (by rw [h]; rfl)
    exact (if_pos henabled).trans hshape

/-- The reason is the same, since looking for a call shape and making a stub agree. -/
theorem stub_of_refuses (h : Refuses p settings reason) (r : Request) :
    (new p settings).stub r = .error (.refused r.name reason) := by
  have hshape := callShape_of_refuses h r.signature
  have herror : reason.buildError r.name = .refused r.name reason := by cases h <;> rfl
  rcases (new p settings).stub_cases r with ⟨shape, s, hok, -⟩ | ⟨reason', hreason, hstub⟩
  · cases hshape.symm.trans hok
  · cases hshape.symm.trans hreason
    rw [hstub, herror]

/-- A request leaves neither a stub nor a name behind, so that the same name is not a duplicate later. -/
theorem compile_of_refuses (h : Refuses p settings reason) (r : Request) :
    (new p settings).compile r = (new p settings, .error (.refused r.name reason)) := by
  have hfree : (new p settings).names.contains r.name = false := rfl
  rw [compile, hfree, if_neg Bool.false_ne_true, stub_of_refuses h]
  rfl

end Batch

namespace Compiler

theorem select_cases (p : Platform) (settings : Settings) :
    select p settings = new p settings ∨
      ∃ reason, Refuses p settings reason ∧ select p settings = .refusing reason := by
  unfold select
  cases henabled : settings.enabled with
  | false => exact .inr ⟨_, .disabled henabled, rfl⟩
  | true =>
    cases hplatform : p.isSysV with
    | false => exact .inr ⟨_, .platform henabled hplatform, rfl⟩
    | true => exact .inl rfl

/-! ### Compilers that stay as they are -/

/-- A compiler that no question changes answers every question as if it were the first. -/
theorem replies_of_stays {c : Compiler} {reply : Question → Reply} (h : ∀ q, c.ask q = (c, reply q))
    (questions : List Question) : c.replies questions = questions.map reply := by
  induction questions with
  | nil => rfl
  | cons q questions ih =>
    rw [replies, h, List.map_cons]
    exact congrArg (reply q :: ·) ih

theorem ask_refusing (reason : Refusal) (q : Question) :
    (refusing reason).ask q = (refusing reason, q.refused reason) := by
  cases q <;> rfl

theorem ask_new_of_refuses (h : Refuses p settings reason) (q : Question) :
    (new p settings).ask q = (new p settings, q.refused reason) := by
  have hshape (s : Signature) : (new p settings).callShape s = .error reason :=
    Batch.callShape_of_refuses h s
  cases q with
  | callShape s => rw [ask, hshape, Question.refused]
  | accepts s =>
    rw [ask, accepts, hshape]
    rfl
  | compile r =>
    have hcompile : (new p settings).compile r = (new p settings, .error (.refused r.name reason)) := by
      rw [new, compile, Batch.compile_of_refuses h]
    rw [ask, hcompile, Question.refused]
  | pending => rfl
  | attach l sys receiver s => rfl

/-- What is seen of a compiler for a platform that gets no stubs. -/
theorem replies_new_of_refuses (h : Refuses p settings reason) (questions : List Question) :
    (new p settings).replies questions = questions.map (Question.refused reason) :=
  replies_of_stays (ask_new_of_refuses h) questions

/-- **Nothing tells the selected compiler from the one that gathers batches**, for any platform, under all
settings, and whatever they are asked. If stubs are switched off, or if they are not but the platform is
none of System V, both refuse everything for that reason, never have a stub pending, and attach nothing. -/
theorem replies_select (p : Platform) (settings : Settings) (questions : List Question) :
    (select p settings).replies questions = (new p settings).replies questions ∧
      (settings.enabled = false →
        (new p settings).replies questions = questions.map (Question.refused .disabled)) ∧
      (settings.enabled = true → p.isSysV = false →
        (new p settings).replies questions = questions.map (Question.refused (.platform p))) := by
  refine ⟨?_, fun h => replies_new_of_refuses (.disabled h) questions,
    fun henabled h => replies_new_of_refuses (.platform henabled h) questions⟩
  rcases select_cases p settings with hselect | ⟨reason, hrefuses, hselect⟩
  · rw [hselect]
  · rw [hselect, replies_new_of_refuses hrefuses]
    exact replies_of_stays (ask_refusing reason) questions

/-- A 64-bit system that is none of System V. -/
def windows : Platform := ⟨.x86_64, .windows, 64, 32⟩

/-- A request, the same once more, and an attachment to a table. -/
def twiceAndAttach (sys : System) : List Question :=
  let r : Request := ⟨"now", ⟨[], ⟨.i64, false⟩, .default⟩, 0x1000, false⟩
  [.compile r, .compile r, .pending, .attach .new sys .table .empty]

/-- A system that gives a place for every block and lets it be executed. -/
def consentingSystem : System := .granting 4096 fun _ => some 0x10000

/-- A system that gives a place for every block and lets none be executed. -/
def denyingSystem : System := consentingSystem.denying "denied"

/-- What a request or an attachment failed for, if it did. -/
def Reply.error? : Reply → Option CommitFailure
  | .compiled (.error e) => some (.build e)
  | .attached _ _ _ (.error e) => some e
  | _ => none

/-- The names of the stubs that were pending. -/
def Reply.names : Reply → List String
  | .pending stubs => stubs.map Stub.name
  | _ => []

/-- What was offered to the receiver of an attachment, and the unit that it made. -/
def Reply.unit? : Reply → Option (List String × UnitId)
  | .attached _ _ offers (.ok (some unit)) => some (offers.map (·.method.name), unit.id)
  | _ => none

/-- Two compilers refuse everything, each for its reason. On a platform with stubs the request that comes
twice is a duplicate, the system decides whether its stub gets a region, and either way the compiler starts
again. -/
theorem replies_select_twice :
    (select windows (.default 0x5000)).replies (twiceAndAttach consentingSystem) =
        (twiceAndAttach consentingSystem).map (Question.refused (.platform windows)) ∧
      (select windows { Settings.default 0x5000 with enabled := false }).replies
          (twiceAndAttach consentingSystem) =
        [.compiled (.error (.refused "now" .disabled)), .compiled (.error (.refused "now" .disabled)),
          .pending [], .attached .new Table.empty [] (.ok none)] ∧
      let questions := twiceAndAttach denyingSystem ++ twiceAndAttach consentingSystem
      let seen := (select .host (.default 0x5000)).replies questions
      seen = (new .host (.default 0x5000)).replies questions ∧
        seen.map Reply.error? =
          [none, some (.build (.duplicate "now")), none, some (.build (.protection "denied")),
            none, some (.build (.duplicate "now")), none, none] ∧
        seen.flatMap Reply.names = ["now", "now"] ∧ seen.filterMap Reply.unit? = [(["now"], 1)] := by
  obtain ⟨hsame, -, hplatform⟩ :=
    replies_select windows (.default 0x5000) (twiceAndAttach consentingSystem)
  obtain ⟨hsame', hdisabled, -⟩ := replies_select windows
    { Settings.default 0x5000 with enabled := false } (twiceAndAttach consentingSystem)
  refine ⟨hsame.trans (hplatform rfl rfl), hsame'.trans (hdisabled rfl), ?_⟩
  intro questions seen
  obtain ⟨hhost, -, -⟩ := replies_select .host (.default 0x5000) questions
  exact ⟨hhost, by decide +kernel, by decide +kernel, by decide +kernel⟩

end Compiler

end Trampoline
