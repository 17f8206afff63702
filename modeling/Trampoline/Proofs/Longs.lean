import Mathlib.Tactic.TFAE
import Trampoline.Memory.Lemmas
import Trampoline.Proofs.Eligibility

/-!
# The size of a `long`

The size of a C `long` on a platform is asked for in three places: where the width of a slot is found,
where a reader of integer arguments asks what a slot holds, and where memory reads and writes values. They
do not agree on which sizes there are.

* `Slot.exists_width?_long_iff`, `Signature.eligible_ofLong_iff`: a slot has a width, and a function of
  such slots can get a stub, for four sizes;
* `Scalar.supported_long_iff`: memory knows two of them;
* `Slot.isLong32_iff`, `isLong64_iff`, `isInt32_iff`: what three questions to a slot come to;
* `Platform.LongViews`, `Platform.OneLong`: what holds of a `long` on every platform, and where all places
  agree;
* `Platform.long_views`: on which platforms they do.
-/

namespace Trampoline

variable {p : Platform}

/-! ### Slots -/

namespace Slot

/-- A `long` has a width where its size is one. -/
theorem width?_long_eq_some_iff {w : Width} :
    Slot.width? p ⟨.long, false⟩ = some w ↔ p.longBits = w.bits := Width.ofBits?_eq_some_iff

theorem exists_width?_long_iff :
    (∃ w, Slot.width? p ⟨.long, false⟩ = some w) ↔ p.longBits ∈ [8, 16, 32, 64] := by
  simp only [width?_long_eq_some_iff, List.mem_cons, List.not_mem_nil, or_false]
  constructor
  · rintro ⟨w, hw⟩
    cases w <;> simp [hw, Width.bits]
  · rintro (h | h | h | h)
    · exact ⟨.w8, h⟩
    · exact ⟨.w16, h⟩
    · exact ⟨.w32, h⟩
    · exact ⟨.w64, h⟩

theorem isLong32_iff {s : Slot} : s.isLong32 p = true ↔ s.type = .long ∧ s.width? p = some .w32 := by
  obtain ⟨type, wide⟩ := s
  cases wide <;> cases type <;>
    simp [isLong32, width?, ValueType.isIntegral, Width.ofBits?_eq_some_iff, Width.bits]

theorem isLong64_iff {s : Slot} :
    s.isLong64 p = true ↔ (s.type = .i64 ∨ s.type = .long) ∧ s.width? p = some .w64 := by
  obtain ⟨type, wide⟩ := s
  cases wide <;> cases type <;>
    simp [isLong64, width?, ValueType.isIntegral, Width.ofBits?_eq_some_iff, Width.bits]

/-- A reader of 32-bit integers takes whatever is no wider and a truth value, but no `long` that is
shorter. -/
theorem isInt32_iff {s : Slot} : s.isInt32 p = true ↔
    (s.width? p = some .w8 ∨ s.width? p = some .w16 ∨ s.width? p = some .w32 ∨ s = ⟨.bool, false⟩) ∧
      ¬ (s = ⟨.long, false⟩ ∧ (p.longBits = 8 ∨ p.longBits = 16)) := by
  obtain ⟨type, wide⟩ := s
  cases wide <;> cases type <;>
    simp [isInt32, isLong32, width?, ValueType.isIntegral, Width.ofBits?_eq_some_iff, Width.bits]
  omega

end Slot

/-- The function that takes a `long` and gives one. -/
def Signature.ofLong : Signature := ⟨[⟨.long, false⟩], ⟨.long, false⟩, .default⟩

/-- Where there are stubs at all, functions of such slots get one if the slots have a width. -/
theorem Signature.eligible_ofLong_iff (hp : p.SysV) :
    ofLong.Eligible p ↔ ∃ w, Slot.width? p ⟨.long, false⟩ = some w := by
  constructor
  · intro h
    obtain ⟨c, hc⟩ := h.params ⟨.long, false⟩ (List.mem_singleton_self _)
    obtain ⟨w, rfl⟩ : ∃ w, c = .int w := by cases hc; exact ⟨_, rfl⟩
    exact ⟨w, Slot.width?_eq_some_iff.2 hc⟩
  · rintro ⟨w, hw⟩
    have htravels : Slot.Travels p ⟨.long, false⟩ (.int w) := Slot.width?_eq_some_iff.1 hw
    refine ⟨hp, rfl, ⟨_, .value htravels⟩, fun slot hslot => ?_, ?_, ?_⟩
    · rw [List.mem_singleton.1 hslot]
      exact ⟨_, htravels⟩
    · exact (List.countP_le_length).trans (by decide : 1 ≤ 6)
    · exact (List.countP_le_length).trans (by decide : 1 ≤ 8)

/-! ### Memory -/

theorem Scalar.supported_long_iff : Scalar.long.Supported p ↔ p.longBits = 32 ∨ p.longBits = 64 :=
  ⟨fun h => h (.inl rfl), fun h _ => h⟩

/-! ### Where the views agree -/

/-- What is known of a `long` on every platform. -/
structure Platform.LongViews (p : Platform) : Prop where
  /-- A slot for a `long` that is not marked wide has a width for four sizes, -/
  width : ∀ w, Slot.width? p ⟨.long, false⟩ = some w ↔ p.longBits = w.bits
  /-- and functions of such slots get a stub for the same ones. -/
  eligible : p.isSysV = true →
    ((∃ v, Signature.ofLong.verdict p = .ok v) ↔ ∃ w, Slot.width? p ⟨.long, false⟩ = some w)
  /-- Memory knows two sizes, in reading and in writing, wherever an access goes. -/
  memory : ∀ (m : Memory) (offset : Nat) (v : Scalar.long.Value), m.platform = p →
    [∀ bits, m.get .long offset ≠ .error (.unsupportedWidth bits),
      ∀ bits, (m.put .long offset v).2 ≠ .error (.unsupportedWidth bits),
      p.longBits = 32 ∨ p.longBits = 64].TFAE
  /-- The width is that of the bytes that a `long` takes in memory. -/
  size : ∀ w, Slot.width? p ⟨.long, false⟩ = some w → w.bytes = Scalar.long.size p
  /-- A slot holds a `long` of 32 bits or an integer of 64 bits as its width says. -/
  isLong32 : ∀ s : Slot, s.isLong32 p = true ↔ s.type = .long ∧ s.width? p = some .w32
  isLong64 : ∀ s : Slot, s.isLong64 p = true ↔
    (s.type = .i64 ∨ s.type = .long) ∧ s.width? p = some .w64
  /-- A slot whose width is 32 bits or less can be read as a 32-bit integer, unless it is that of a `long`
  of less than 32 bits; so can a truth value. -/
  isInt32 : ∀ s : Slot, s.isInt32 p = true ↔
    (s.width? p = some .w8 ∨ s.width? p = some .w16 ∨ s.width? p = some .w32 ∨ s = ⟨.bool, false⟩) ∧
      ¬ (s = ⟨.long, false⟩ ∧ (p.longBits = 8 ∨ p.longBits = 16))

/-- All views of a `long` agree on a platform. -/
structure Platform.OneLong (p : Platform) : Prop extends p.LongViews where
  /-- A slot for a `long` has a width if memory knows its size, and not otherwise; -/
  width_iff : ∀ (m : Memory) (offset : Nat) (v : Scalar.long.Value), m.platform = p →
    [∃ w, Slot.width? p ⟨.long, false⟩ = some w,
      ∀ bits, m.get .long offset ≠ .error (.unsupportedWidth bits),
      ∀ bits, (m.put .long offset v).2 ≠ .error (.unsupportedWidth bits),
      p.longBits = 32 ∨ p.longBits = 64].TFAE
  /-- and whatever has a width of 32 bits or less can be read as a 32-bit integer. -/
  isInt32_iff : ∀ s : Slot, s.isInt32 p = true ↔
    s.width? p = some .w8 ∨ s.width? p = some .w16 ∨ s.width? p = some .w32 ∨ s = ⟨.bool, false⟩

namespace Platform

theorem longViews (p : Platform) : p.LongViews where
  width _ := Slot.width?_long_eq_some_iff
  eligible hp :=
    Signature.verdict_isOk_iff.trans (Signature.eligible_ofLong_iff (isSysV_iff.1 hp))
  memory m offset v hm := by
    subst hm
    rw [← Scalar.supported_long_iff]
    tfae_have 1 ↔ 3 := Memory.ne_unsupported_iff Memory.get_of_fits fun _ => Memory.get_of_fault
    tfae_have 2 ↔ 3 := by
      refine Memory.ne_unsupported_iff (fun h => ?_) fun _ h => congrArg Prod.snd (Memory.put_of_fault h v)
      obtain ⟨m', hput⟩ := Memory.put_of_fits h v
      exact ⟨(), congrArg Prod.snd hput⟩
    tfae_finish
  size w hw := by rw [Width.bytes, ← Slot.width?_long_eq_some_iff.1 hw]; rfl
  isLong32 _ := Slot.isLong32_iff
  isLong64 _ := Slot.isLong64_iff
  isInt32 _ := Slot.isInt32_iff

theorem not_oneLong_of_short (h : p.longBits = 8 ∨ p.longBits = 16) : ¬ p.OneLong := by
  intro hone
  have hwidth := (hone.width_iff ⟨p, [], by decide⟩ 0 0 rfl).out 0 3
  rw [Slot.exists_width?_long_iff] at hwidth
  rcases h with h | h <;> simp [h] at hwidth

/-- The sizes on which memory and slots differ are the two short ones. -/
theorem oneLong_of_not_short (h : ¬ (p.longBits = 8 ∨ p.longBits = 16)) : p.OneLong where
  toLongViews := p.longViews
  width_iff m offset v hm := by
    have hmemory := p.longViews.memory m offset v hm
    tfae_have 2 ↔ 3 := hmemory.out 0 1
    tfae_have 3 ↔ 4 := hmemory.out 1 2
    tfae_have 1 ↔ 4 := by
      rw [Slot.exists_width?_long_iff]
      simp only [List.mem_cons, List.not_mem_nil, or_false]
      omega
    tfae_finish
  isInt32_iff s := by
    rw [Slot.isInt32_iff]
    exact and_iff_left fun hs => h hs.2

/-- **The views of a `long`**, on every platform. They are one unless a `long` has 8 or 16 bits: slots have
these widths, but memory does not know the sizes, and readers of 32-bit integers do not take the slots. -/
theorem long_views (p : Platform) :
    p.LongViews ∧ (p.OneLong ↔ ¬ (p.longBits = 8 ∨ p.longBits = 16)) :=
  ⟨p.longViews, fun hone h => not_oneLong_of_short h hone, oneLong_of_not_short⟩

/-- A `long` of 16 bits has a width, and no memory holds one. -/
theorem long_of_16_bits :
    Slot.width? ⟨.x86_64, .linux, 64, 16⟩ ⟨.long, false⟩ = some .w16 ∧
      (∀ (m : Memory) (offset : Nat), m.platform = ⟨.x86_64, .linux, 64, 16⟩ →
        m.get .long offset = .error (.unsupportedWidth 16)) ∧
      Slot.isInt32 ⟨.x86_64, .linux, 64, 16⟩ ⟨.long, false⟩ = false ∧
      ¬ OneLong ⟨.x86_64, .linux, 64, 16⟩ :=
  ⟨rfl, fun m offset hm => by rw [Memory.get, hm]; rfl, rfl, not_oneLong_of_short (.inr rfl)⟩

end Platform

end Trampoline
