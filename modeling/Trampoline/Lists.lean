import Mathlib.Data.List.Nodup

/-!
# Lists

Lists side by side, searches with one hit at most, repeated elements, lists in which one element is
replaced, and lists that are written out.

* `exists_of_forall₂_left`, `forall₂_comp`, `map_eq_of_forall₂`, `forall₂_filterMap`: related lists;
* `find?_eq_some_iff_of_pairwise`, `find?_key_eq_some_iff`: what the first match is if there is no second;
* `FirstRepeat`, `FirstRepeat.not_nodup`, `FirstRepeat.unique`: the first element that stood there before;
* `getElem?_append_singleton_eq_some_iff`: where an element stands when one more comes at the end;
* `map_set_of_eq`, `countP_set_add`: a projection, and a count, when an element is replaced;
* `IsPrefixCode`: words that a text tells apart; `flatMap_inj`, `intercalate_inj`: so it does in a row, and
  with separators.
-/

namespace Trampoline

/-! ### Lists side by side -/

theorem exists_of_forall₂_left {α β : Type} {R : α → β → Prop} {l : List α} {l' : List β}
    (h : List.Forall₂ R l l') {a : α} (ha : a ∈ l) : ∃ b ∈ l', R a b := by
  induction h with
  | nil => cases ha
  | cons hab _ ih =>
    rcases List.mem_cons.1 ha with rfl | ha
    · exact ⟨_, List.mem_cons_self, hab⟩
    · obtain ⟨b, hb, hr⟩ := ih ha
      exact ⟨b, List.mem_cons_of_mem _ hb, hr⟩

theorem forall₂_comp {α β γ : Type} {R : α → β → Prop} {S : β → γ → Prop} {l : List α} {l' : List β}
    {l'' : List γ} (h : List.Forall₂ R l l') (h' : List.Forall₂ S l' l'') :
    List.Forall₂ (fun a c => ∃ b, R a b ∧ S b c) l l'' := by
  induction h generalizing l'' with
  | nil => cases h'; exact .nil
  | cons hab _ ih =>
    cases h' with
    | cons hbc h' => exact .cons ⟨_, hab, hbc⟩ (ih h')

theorem map_eq_of_forall₂ {α β γ : Type} {R : α → β → Prop} {f : α → γ} {g : β → γ}
    {l : List α} {l' : List β} (h : List.Forall₂ R l l') (hR : ∀ a b, R a b → g b = f a) :
    l'.map g = l.map f := by
  induction h with
  | nil => rfl
  | cons hab _ ih => rw [List.map_cons, List.map_cons, hR _ _ hab, ih]

/-- Where a partial function has values throughout, each element stands beside its value. -/
theorem forall₂_filterMap {α β : Type} {f : α → Option β} {l : List α}
    (h : ∀ a ∈ l, (f a).isSome = true) : List.Forall₂ (fun a b => f a = some b) l (l.filterMap f) := by
  induction l with
  | nil => exact .nil
  | cons a l ih =>
    obtain ⟨ha, hl⟩ := List.forall_mem_cons.1 h
    obtain ⟨b, hb⟩ := Option.isSome_iff_exists.1 ha
    rw [List.filterMap_cons_some hb]
    exact .cons hb (ih hl)

/-! ### One hit at most -/

/-- Where no two elements match, the first match is the match. -/
theorem find?_eq_some_iff_of_pairwise {α : Type} {p : α → Bool} {l : List α}
    (h : l.Pairwise fun a b => ¬ (p a = true ∧ p b = true)) {a : α} :
    l.find? p = some a ↔ a ∈ l ∧ p a = true := by
  constructor
  · intro hfind
    exact ⟨List.mem_of_find?_eq_some hfind, List.find?_some hfind⟩
  · rintro ⟨ha, hp⟩
    induction h with
    | nil => cases ha
    | @cons b l hb _ ih =>
      rcases List.mem_cons.1 ha with rfl | ha
      · exact List.find?_cons_of_pos hp
      · have hno : ¬ p b = true := fun hpb => hb a ha ⟨hpb, hp⟩
        rw [List.find?_cons_of_neg hno, ih ha]

/-- Where keys are distinct, what is found under a key is the one element that has it. -/
theorem find?_key_eq_some_iff {α κ : Type} [BEq κ] [LawfulBEq κ] {l : List α} {key : α → κ}
    (h : (l.map key).Nodup) {k : κ} {a : α} :
    l.find? (fun x => key x == k) = some a ↔ a ∈ l ∧ key a = k := by
  have hone : l.Pairwise fun a b => ¬ ((key a == k) = true ∧ (key b == k) = true) := by
    refine (List.pairwise_map.1 h).imp fun hne heq => hne ?_
    rw [beq_iff_eq, beq_iff_eq] at heq
    exact heq.1.trans heq.2.symm
  rw [find?_eq_some_iff_of_pairwise hone, beq_iff_eq]

/-! ### Repeated elements -/

/-- The first element of a list that stood there before. -/
def FirstRepeat {α : Type} (l : List α) (a : α) : Prop :=
  ∃ front back, l = front ++ a :: back ∧ front.Nodup ∧ a ∈ front

theorem FirstRepeat.not_nodup {α : Type} {l : List α} {a : α} (h : FirstRepeat l a) : ¬ l.Nodup := by
  obtain ⟨front, back, rfl, -, hmem⟩ := h
  intro hnodup
  exact (List.nodup_append.1 hnodup).2.2 a hmem a List.mem_cons_self rfl

theorem FirstRepeat.unique {α : Type} {l : List α} {a b : α} (ha : FirstRepeat l a)
    (hb : FirstRepeat l b) : a = b := by
  obtain ⟨front, back, rfl, hfront, hmem⟩ := ha
  obtain ⟨front', back', hsame, hfront', hmem'⟩ := hb
  -- If one of the two stood behind the other, it would stand behind a repetition.
  rcases List.append_eq_append_iff.1 hsame with ⟨_ | ⟨c, more⟩, hlong, hrest⟩ | ⟨_ | ⟨c, more⟩, hlong, hrest⟩
  · exact (List.cons.inj hrest).1
  · obtain ⟨rfl, -⟩ := List.cons.inj hrest
    rw [hlong] at hfront'
    exact absurd hfront' (FirstRepeat.not_nodup ⟨front, more, rfl, hfront, hmem⟩)
  · exact (List.cons.inj hrest).1.symm
  · obtain ⟨rfl, -⟩ := List.cons.inj hrest
    rw [hlong] at hfront
    exact absurd hfront (FirstRepeat.not_nodup ⟨front', more, rfl, hfront', hmem'⟩)

/-! ### One element more -/

/-- What stands at a position stood there before, or it is the new element at the end. -/
theorem getElem?_append_singleton_eq_some_iff {α : Type} {l : List α} {n : Nat} {a b : α} :
    (l ++ [a])[n]? = some b ↔ l[n]? = some b ∨ n = l.length ∧ a = b := by
  by_cases hn : n < l.length
  · rw [List.getElem?_append_left hn]
    simp [Nat.ne_of_lt hn]
  · rw [List.getElem?_append_right (Nat.le_of_not_lt hn), List.getElem?_eq_none (Nat.le_of_not_lt hn)]
    simp [List.getElem?_singleton]
    omega

/-! ### One element replaced -/

/-- A projection does not change if the new element looks like the old one. -/
theorem map_set_of_eq {α β : Type} {l : List α} {i : Nat} {x y : α} {f : α → β} (hx : l[i]? = some x)
    (hf : f y = f x) : (l.set i y).map f = l.map f := by
  apply List.ext_getElem?
  intro j
  simp only [List.getElem?_map, List.getElem?_set]
  by_cases heq : i = j
  · subst heq
    obtain ⟨hi, hget⟩ := List.getElem?_eq_some_iff.1 hx
    simp [hi, hget, hf]
  · simp [heq]

/-- An element that no longer counts, in place of one that may have counted. -/
theorem countP_set_add {α : Type} {l : List α} {i : Nat} {x y : α} {p : α → Bool} (hx : l[i]? = some x)
    (hy : p y = false) : (l.set i y).countP p + (if p x = true then 1 else 0) = l.countP p := by
  obtain ⟨hi, hget⟩ := List.getElem?_eq_some_iff.1 hx
  have hpos : p x = true → 0 < l.countP p := fun hp =>
    List.countP_pos_iff.2 ⟨x, List.mem_of_getElem? hx, hp⟩
  rw [List.countP_set hi, hget, hy]
  by_cases hp : p x = true
  · have := hpos hp
    simp only [hp, if_true]
    simp
    omega
  · simp [hp]

/-! ### Lists written out -/

/-- Behind its first word, a list with separators is a row of pairs of a separator and a word. -/
theorem intercalate_map_cons {α β : Type} (sep : List β) (f : α → List β) (a : α) (l : List α) :
    sep.intercalate ((a :: l).map f) = f a ++ l.flatMap fun b => sep ++ f b := by
  induction l generalizing a with
  | nil => simp
  | cons b l ih =>
    rw [List.map_cons, List.map_cons, List.intercalate_cons_cons, ← List.map_cons, ih b,
      List.flatMap_cons, List.append_assoc, List.append_assoc]

/-- Words of which none begins another, so that a text tells the word it starts with. -/
def IsPrefixCode {α β : Type} (f : α → List β) : Prop := ∀ a b, f a <+: f b → a = b

namespace IsPrefixCode

variable {α β : Type} {f : α → List β} {sep close : List β}

theorem append_inj (hf : IsPrefixCode f) {a b : α} {rest rest' : List β}
    (h : f a ++ rest = f b ++ rest') : a = b ∧ rest = rest' := by
  have ha : f a <+: f b ++ rest' := ⟨rest, h⟩
  have hab : a = b := by
    rcases List.prefix_or_prefix_of_prefix ha (List.prefix_append (f b) rest') with hle | hle
    · exact hf a b hle
    · exact (hf b a hle).symm
  subst hab
  exact ⟨rfl, List.append_cancel_left h⟩

theorem injective (hf : IsPrefixCode f) : Function.Injective f :=
  fun a b h => hf a b ⟨[], by rw [List.append_nil, h]⟩

/-- What stands in front of every word makes no difference. -/
theorem append_left (hf : IsPrefixCode f) (sep : List β) : IsPrefixCode fun a => sep ++ f a :=
  fun a b h => hf a b ((List.prefix_append_right_inj sep).1 h)

/-- Words in a row are told apart where no word starts like what stands behind the last one. -/
theorem flatMap_inj (hf : IsPrefixCode f) (hclose : ∀ a rest rest', f a ++ rest ≠ close ++ rest')
    {l l' : List α} {rest rest' : List β}
    (h : l.flatMap f ++ (close ++ rest) = l'.flatMap f ++ (close ++ rest')) :
    l = l' ∧ rest = rest' := by
  induction l generalizing l' with
  | nil =>
    cases l' with
    | nil => exact ⟨rfl, List.append_cancel_left h⟩
    | cons b l' =>
      rw [List.flatMap_cons, List.append_assoc] at h
      exact absurd h.symm (hclose b _ rest)
  | cons a l ih =>
    cases l' with
    | nil =>
      rw [List.flatMap_cons, List.append_assoc] at h
      exact absurd h (hclose a _ rest')
    | cons b l' =>
      rw [List.flatMap_cons, List.flatMap_cons, List.append_assoc, List.append_assoc] at h
      obtain ⟨rfl, hmore⟩ := hf.append_inj h
      obtain ⟨rfl, hrest⟩ := ih hmore
      exact ⟨rfl, hrest⟩

/-- Words with separators are told apart where neither a word nor a separator starts like what stands behind
the last word. -/
theorem intercalate_inj (hf : IsPrefixCode f) (hsep : ∀ rest rest', sep ++ rest ≠ close ++ rest')
    (hclose : ∀ a rest rest', f a ++ rest ≠ close ++ rest') {l l' : List α} {rest rest' : List β}
    (h : sep.intercalate (l.map f) ++ (close ++ rest) =
      sep.intercalate (l'.map f) ++ (close ++ rest')) : l = l' ∧ rest = rest' := by
  cases l with
  | nil =>
    cases l' with
    | nil => exact ⟨rfl, List.append_cancel_left h⟩
    | cons b l' =>
      rw [intercalate_map_cons, List.append_assoc] at h
      exact absurd h.symm (hclose b _ rest)
  | cons a l =>
    cases l' with
    | nil =>
      rw [intercalate_map_cons, List.append_assoc] at h
      exact absurd h (hclose a _ rest')
    | cons b l' =>
      rw [intercalate_map_cons, intercalate_map_cons, List.append_assoc, List.append_assoc] at h
      obtain ⟨rfl, hmore⟩ := hf.append_inj h
      have hmember : ∀ a rest rest', (sep ++ f a) ++ rest ≠ close ++ rest' := by
        intro a rest rest'
        rw [List.append_assoc]
        exact hsep _ rest'
      obtain ⟨rfl, hrest⟩ := (hf.append_left sep).flatMap_inj hmember hmore
      exact ⟨rfl, hrest⟩

end IsPrefixCode

end Trampoline
