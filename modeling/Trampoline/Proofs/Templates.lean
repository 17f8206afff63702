import Mathlib.Data.Nat.Basic
import Mathlib.Order.Basic
import Trampoline.Proofs.Listing
import Trampoline.Stub.Lemmas

/-!
# Templates

Code before it is linked is a template: it says nothing about the addresses that will be filled in. The
template of a stub is decided by the shape of its call.

* `Item.retarget`, `Code.retarget`, `assemble_retarget`: code whose addresses are replaced;
* `bytes_eq_of_retarget`: code that only its addresses tell apart has the same bytes and the same fields;
* `targets_assemble`, `slice?_fixup`: the addresses that wait for their fields, and what the fields hold
  until then;
* `program_retarget`, `target?_program`: the sequence of a stub as its template and its addresses;
* `code_of_shape`: what decides the code of a stub;
* `code_of_perm`: a call whose parameters stand in another order.
-/

namespace Trampoline

/-! ### Replacing addresses -/

/-- The item with its address replaced. -/
def Item.retarget (f : Address → Address) : Item → Item
  | instruction i => instruction i
  | loadAddress dst target => loadAddress dst (f target)
  | raw bs => raw bs

/-- The field where it is, for another address. -/
def Fixup.retarget (f : Address → Address) (x : Fixup) : Fixup := ⟨x.offset, f x.target⟩

/-- The code with all its addresses replaced. -/
def Code.retarget (f : Address → Address) (c : Code) : Code := ⟨c.bytes, c.fixups.map (.retarget f)⟩

@[simp] theorem Item.bytes_retarget (f : Address → Address) (i : Item) :
    (i.retarget f).bytes = i.bytes := by
  cases i <;> rfl

/-- Only loads of addresses change. -/
theorem Item.retarget_of_target? (f : Address → Address) {i : Item} (h : i.target? = none) :
    i.retarget f = i := by
  cases i with
  | loadAddress dst target => cases h
  | instruction i => rfl
  | raw bs => rfl

theorem fixupsFrom_retarget (f : Address → Address) (start : Nat) (items : List Item) :
    fixupsFrom start (items.map (Item.retarget f)) =
      (fixupsFrom start items).map (Fixup.retarget f) := by
  induction items generalizing start with
  | nil => rfl
  | cons i items ih =>
    have hitem : (i.retarget f).fixups start = (i.fixups start).map (Fixup.retarget f) := by
      cases i <;> rfl
    rw [List.map_cons, fixupsFrom, fixupsFrom, List.map_append, hitem, Item.bytes_retarget, ih]

theorem map_target_fixupsFrom (start : Nat) (items : List Item) :
    (fixupsFrom start items).map Fixup.target = items.filterMap Item.target? := by
  induction items generalizing start with
  | nil => rfl
  | cons i items ih =>
    rw [fixupsFrom, List.map_append, ih]
    cases i <;> rfl

/-- An open field holds zeros, whatever stands before it. -/
theorem slice?_fixupsFrom (before : Bytes) {items : List Item} {x : Fixup}
    (h : x ∈ fixupsFrom before.length items) :
    Bytes.slice? (before ++ items.flatMap Item.bytes) x.offset 8 = some (imm64 0) := by
  induction items generalizing before with
  | nil => cases h
  | cons i items ih =>
    rw [List.flatMap_cons, ← List.append_assoc]
    rcases List.mem_append.1 h with h | h
    · cases i with
      | instruction i => cases h
      | raw bs => cases h
      | loadAddress dst target =>
        cases List.mem_singleton.1 h
        have hmiddle := Bytes.slice?_middle (before ++ [(Rex.one true dst).byte, 0b10111#5 ++ dst.low])
          (imm64 0) (items.flatMap Item.bytes)
        rw [List.length_append, length_imm64] at hmiddle
        rwa [List.append_assoc before] at hmiddle
    · exact ih (before ++ i.bytes) (by rwa [List.length_append])

namespace Code

/-- Addresses are no part of the code until it is linked. -/
theorem assemble_retarget (f : Address → Address) (items : List Item) :
    assemble (items.map (Item.retarget f)) = (assemble items).retarget f := by
  rw [assemble_eq, assemble_eq, retarget, fixupsFrom_retarget, List.flatMap_map]
  simp only [Item.bytes_retarget]

theorem bytes_eq_of_retarget {f : Address → Address} {c c' : Code} (h : c.retarget f = c'.retarget f) :
    c.bytes = c'.bytes ∧ c.fixups.map Fixup.offset = c'.fixups.map Fixup.offset := by
  obtain ⟨hbytes, hfixups⟩ := Code.mk.inj h
  refine ⟨hbytes, ?_⟩
  have hoffsets := congrArg (List.map Fixup.offset) hfixups
  rwa [List.map_map, List.map_map] at hoffsets

/-- The addresses that wait for their fields are those of the loads, in order. -/
theorem targets_assemble (items : List Item) :
    (assemble items).fixups.map Fixup.target = items.filterMap Item.target? := by
  rw [assemble_eq]
  exact map_target_fixupsFrom 0 items

/-- Until the code is linked, every open field holds zeros. -/
theorem slice?_fixup {items : List Item} {x : Fixup} (h : x ∈ (assemble items).fixups) :
    Bytes.slice? (assemble items).bytes x.offset 8 = some (List.replicate 8 0) := by
  rw [assemble_eq] at h ⊢
  exact slice?_fixupsFrom [] h

end Code

/-! ### The template of a stub -/

namespace Stub

section Plain

/-! Of all that a stub is made of, only the calls have addresses. -/

theorem target?_moveArguments (n : Nat) : ∀ i ∈ moveArguments n, i.target? = none :=
  List.forall_mem_map.2 fun _ _ => rfl

theorem target?_spill (ret : Return) : ∀ i ∈ spill ret, i.target? = none := by
  rcases ret with _ | _ | _ | _ <;> simp [spill, Item.target?]

theorem target?_reload (ret : Return) : ∀ i ∈ reload ret, i.target? = none := by
  rcases ret with _ | _ | _ | _ <;> simp [reload, Item.target?]

theorem target?_extend (ret : Return) : ∀ i ∈ extend ret, i.target? = none := by
  rcases ret with _ | (_ | _ | _ | _) | _ | _ <;> simp [extend, Item.target?]

variable {items : List Item}

theorem map_retarget_of_plain (f : Address → Address) (h : ∀ i ∈ items, i.target? = none) :
    items.map (Item.retarget f) = items :=
  (List.map_congr_left fun i hi => Item.retarget_of_target? f (h i hi)).trans (List.map_id items)

theorem filterMap_target?_of_plain (h : ∀ i ∈ items, i.target? = none) :
    items.filterMap Item.target? = [] :=
  List.filterMap_eq_nil_iff.2 h

end Plain

/-- The addresses in a stub are replaced by making it for others. -/
theorem program_retarget (f : Address → Address) (n : Nat) (ret : Return) (target : Address)
    (saver : Option Address) :
    (program n ret target saver).map (Item.retarget f) = program n ret (f target) (saver.map f) := by
  have hcall (a : Address) : (callRoutine a).map (Item.retarget f) = callRoutine (f a) := rfl
  have hmoves := map_retarget_of_plain f (target?_moveArguments n)
  have hextend := map_retarget_of_plain f (target?_extend ret)
  cases saver with
  | none =>
    simp only [program, List.map_append, hmoves, hcall, hextend, Option.map_none]
    rfl
  | some saver =>
    have hsave : (saveError ret saver).map (Item.retarget f) = saveError ret (f saver) := by
      simp only [saveError, List.map_append, hcall, map_retarget_of_plain f (target?_spill ret),
        map_retarget_of_plain f (target?_reload ret)]
    simp only [program, List.map_append, hmoves, hcall, hsave, hextend, Option.map_some]
    rfl

/-- The addresses in a stub are that of the function and, if it saves the error code, that of the routine
that does so. -/
theorem target?_program (n : Nat) (ret : Return) (target : Address) (saver : Option Address) :
    (program n ret target saver).filterMap Item.target? = target :: saver.toList := by
  have hcall (a : Address) : (callRoutine a).filterMap Item.target? = [a] := rfl
  have hmoves := filterMap_target?_of_plain (target?_moveArguments n)
  have hextend := filterMap_target?_of_plain (target?_extend ret)
  cases saver with
  | none =>
    simp only [program, List.filterMap_append, hmoves, hcall, hextend]
    rfl
  | some saver =>
    have hsave : (saveError ret saver).filterMap Item.target? = [saver] := by
      simp only [saveError, List.filterMap_append, hcall,
        filterMap_target?_of_plain (target?_spill ret),
        filterMap_target?_of_plain (target?_reload ret)]
      rfl
    simp only [program, List.filterMap_append, hmoves, hcall, hsave, hextend]
    rfl

variable {p p' : Platform} {saver saver' : Address} {r r' : Request} {s s' : Stub}

/-- What a stub fills into its fields, and what stands there before. -/
theorem fixups_of_ofRequest (h : ofRequest p saver r = .ok s) :
    s.code.fixups.map Fixup.target = r.address :: (if r.savesError then [saver] else []) ∧
      ∀ x ∈ s.code.fixups, Bytes.slice? s.code.bytes x.offset 8 = some (List.replicate 8 0) := by
  obtain ⟨ret, -, rfl⟩ := ofRequest_eq_ok_iff.1 h
  refine ⟨?_, fun x hx => Code.slice?_fixup hx⟩
  have hsaver : (saverOf saver r).toList = if r.savesError then [saver] else [] := by
    unfold saverOf
    split <;> rfl
  rw [← hsaver]
  exact (Code.targets_assemble _).trans (target?_program _ _ _ _)

/-- Without its addresses, the code of a stub is made from the number of integers, the kind of result, and
whether the error code is saved. -/
theorem retarget_codeOf (ret : Return) (a : Address) :
    (codeOf p saver r ret).retarget (fun _ => a) = .assemble (program
      (countSlots p .integer r.signature.params) ret a (if r.savesError then some a else none)) := by
  rw [codeOf, ← Code.assemble_retarget, program_retarget, saverOf]
  split <;> rfl

/-- **The shape of a call decides the code of its stub.** Two stubs, for whatever functions, on whatever
platforms and with whatever routines that save the error code, have the same bytes and the same open fields
if their calls have as many integers, results of one kind, and both or neither save the error code. What
else tells them apart is filled in later: the fields hold zeros and wait for the address of the function
and then, if the error code is saved, for that of the routine. -/
theorem code_of_shape (h : ofRequest p saver r = .ok s) (h' : ofRequest p' saver' r' = .ok s')
    (hintegers : countSlots p .integer r.signature.params = countSlots p' .integer r'.signature.params)
    (hret : Return.ofSlot? p r.signature.ret = Return.ofSlot? p' r'.signature.ret)
    (hsaves : r.savesError = r'.savesError) :
    s.code.bytes = s'.code.bytes ∧
      s.code.fixups.map Fixup.offset = s'.code.fixups.map Fixup.offset ∧
      (s.code.fixups.map Fixup.target = r.address :: (if r.savesError then [saver] else []) ∧
        s'.code.fixups.map Fixup.target = r'.address :: (if r'.savesError then [saver'] else [])) ∧
      ∀ x ∈ s.code.fixups, Bytes.slice? s.code.bytes x.offset 8 = some (List.replicate 8 0) := by
  have hfields := fixups_of_ofRequest h
  have hfields' := fixups_of_ofRequest h'
  obtain ⟨ret, hsupported, rfl⟩ := ofRequest_eq_ok_iff.1 h
  obtain ⟨ret', hsupported', rfl⟩ := ofRequest_eq_ok_iff.1 h'
  have hkind : ret = ret' :=
    Option.some.inj (hsupported.result.symm.trans (hret.trans hsupported'.result))
  have htemplate : (codeOf p saver r ret).retarget (fun _ => 0) =
      (codeOf p' saver' r' ret').retarget (fun _ => 0) := by
    rw [retarget_codeOf, retarget_codeOf, hintegers, hkind, hsaves]
  obtain ⟨hbytes, hoffsets⟩ := Code.bytes_eq_of_retarget htemplate
  exact ⟨hbytes, hoffsets, ⟨hfields.1, hfields'.1⟩, hfields.2⟩

/-- A function of a byte, a float and a word, on a system whose `long` is a word. -/
def writeAt : Request :=
  ⟨"write_at", ⟨[⟨.i8, false⟩, ⟨.f32, false⟩, ⟨.long, false⟩], ⟨.long, false⟩, .default⟩, 0x1000, true⟩

/-- A function of two integers in another order of widths, without floats. -/
def seekTo : Request :=
  ⟨"seek_to", ⟨[⟨.i16, true⟩, ⟨.enum, false⟩], ⟨.i64, false⟩, .default⟩, 0x7fff12345678, true⟩

theorem code_of_shape_writeAt_seekTo :
    ∃ s s', ofRequest .host 0x20 writeAt = .ok s ∧
      ofRequest ⟨.x86_64, .macOs, 64, 32⟩ 0x30 seekTo = .ok s' ∧ s.code.bytes = s'.code.bytes ∧
      s.code.fixups.map Fixup.offset = s'.code.fixups.map Fixup.offset ∧
      s.code.fixups.map Fixup.target = [0x1000, 0x20] ∧
      s'.code.fixups.map Fixup.target = [0x7fff12345678, 0x30] := by
  have h : ofRequest .host 0x20 writeAt = .ok _ := rfl
  have h' : ofRequest ⟨.x86_64, .macOs, 64, 32⟩ 0x30 seekTo = .ok _ := rfl
  obtain ⟨hbytes, hoffsets, ⟨htargets, htargets'⟩, -⟩ := code_of_shape h h' (by decide) (by decide) rfl
  exact ⟨_, _, h, h', hbytes, hoffsets, htargets, htargets'⟩

/-- A call whose parameters stand in another order has the same stub, addresses and all. -/
theorem code_of_perm {params : List Slot} (h : ofRequest p saver r = .ok s)
    (hperm : r.signature.params.Perm params) :
    ∃ s', ofRequest p saver { r with signature := { r.signature with params } } = .ok s' ∧
      s'.code = s.code := by
  have hcount (b : Bank) : countSlots p b params = countSlots p b r.signature.params :=
    (hperm.countP_eq _).symm
  obtain ⟨ret, hs, rfl⟩ := ofRequest_eq_ok_iff.1 h
  refine ⟨_, ofRequest_eq_ok_iff.2 ⟨ret, ⟨hs.platform, hs.convention, hs.result,
    fun slot hslot => hs.params slot (hperm.mem_iff.2 hslot), ?_, ?_⟩, rfl⟩, ?_⟩
  · exact (hcount .integer).trans_le hs.integers
  · exact (hcount .float).trans_le hs.floats
  · exact congrArg (fun n => Code.assemble (program n ret r.address (saverOf saver r)))
      (hcount .integer)

end Stub

end Trampoline
