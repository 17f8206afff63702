import Trampoline.Linkage

/-!
# How attachments end

* `Compiler.commit_cases`: a compiler lays out the stubs that it has;
* `Linkage.attach_cases`: an attachment has nothing to link, fails as the layout does, or links its region.
-/

namespace Trampoline

/-- A compiler with stubs lays them out and has a new batch afterwards. -/
theorem Compiler.commit_cases (c : Compiler) (sys : System) :
    (c.pending = [] ∧ c.commit sys = (c, none)) ∨
      ∃ b, c = .batch b ∧ b.pending ≠ [] ∧ c.commit sys =
        (.batch (.new b.platform b.settings), some (Region.ofStubs sys b.settings b.pending)) := by
  cases c with
  | refusing reason => exact .inl ⟨rfl, rfl⟩
  | batch b =>
    by_cases hempty : b.pending = []
    · exact .inl ⟨hempty, by simp [commit, Batch.commit, hempty]⟩
    · refine .inr ⟨b, rfl, hempty, ?_⟩
      simp [commit, Batch.commit, hempty, Batch.clear, Batch.new]

/-- Without stubs an attachment changes nothing. Otherwise the batch is lost when it has no region, and its
region is linked when it has one. -/
theorem Linkage.attach_cases {σ : Type} (l : Linkage) (sys : System) (c : Compiler)
    (receiver : Receiver σ) (s : σ) :
    (c.pending = [] ∧ l.attach sys c receiver s = ⟨l, c, s, .ok none⟩) ∨
      ∃ b, c = .batch b ∧ b.pending ≠ [] ∧
        ((∃ e, Region.ofStubs sys b.settings b.pending = .error e ∧ l.attach sys c receiver s =
            ⟨l, .batch (.new b.platform b.settings), s, .error e⟩) ∨
          ∃ r, Region.ofStubs sys b.settings b.pending = .ok r ∧ l.attach sys c receiver s =
            ⟨(l.link r receiver s).1, .batch (.new b.platform b.settings), (l.link r receiver s).2.1,
              .ok (some (l.link r receiver s).2.2)⟩) := by
  unfold attach
  rcases c.commit_cases sys with ⟨hempty, hcommit⟩ | ⟨b, rfl, hpending, hcommit⟩
  · exact .inl ⟨hempty, by rw [hcommit]⟩
  · refine .inr ⟨b, rfl, hpending, ?_⟩
    rw [hcommit]
    cases Region.ofStubs sys b.settings b.pending with
    | error e => exact .inl ⟨e, rfl, rfl⟩
    | ok r => exact .inr ⟨r, rfl, rfl⟩

end Trampoline
