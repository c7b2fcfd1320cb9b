import Deduction.Proofs.Rules

/-!
Proof by cases: when it applies, what it leaves open, and why it is refused.

Three premises and two labels take part. Each case loses its own label and no other, so that a label
which one case discharges may stay open through the other case or through the disjunction. The two
unions that are built one inside the other find exactly the labels on which some two of the three
premises disagree.
-/

namespace Deduction

namespace Assumptions

variable {Label Atom : Type} [BEq Label] [LawfulBEq Label] [BEq Atom] [LawfulBEq Atom]
  {a b c d e : Assumptions Label Atom} {label : Label}

/-- A union of three sets binds what any of them binds. -/
theorem get?_merge_merge (inner : b.merge c = .ok d) (outer : a.merge d = .ok e)
    {f : Formula Atom} :
    e.get? label = some f ↔
      a.get? label = some f ∨ b.get? label = some f ∨ c.get? label = some f := by
  rw [get?_merge outer, get?_merge inner]

/-- Three sets can be united exactly when no label names two formulas in them. -/
theorem exists_merge_merge_iff :
    (∃ d e, b.merge c = .ok d ∧ a.merge d = .ok e) ↔
      ∀ label f g, (a.get? label = some f ∨ b.get? label = some f ∨ c.get? label = some f) →
        (a.get? label = some g ∨ b.get? label = some g ∨ c.get? label = some g) → f = g := by
  constructor
  · rintro ⟨d, e, inner, outer⟩ label f g hf hg
    rw [← get?_merge_merge inner outer] at hf hg
    exact Option.some.inj (hf.symm.trans hg)
  · intro single
    have innerAgree : b.Agree c := fun label f g hf hg =>
      single label f g (.inr (.inl hf)) (.inr (.inr hg))
    obtain ⟨d, inner⟩ := exists_merge_iff.mpr innerAgree
    have outerAgree : a.Agree d := by
      intro label f g hf hg
      rw [get?_merge inner] at hg
      exact single label f g (.inl hf) (.inr hg)
    obtain ⟨e, outer⟩ := exists_merge_iff.mpr outerAgree
    exact ⟨d, e, inner, outer⟩

end Assumptions

namespace Proof

variable {Label Atom : Type} [BEq Label]

/-- What a proof by cases leaves open: all that the disjunction assumes, and in each case what is
not under the label of the case. -/
def LeftOpen (r s : Proof Label Atom) (l₁ : Label) (t : Proof Label Atom) (l₂ label : Label)
    (f : Formula Atom) : Prop :=
  r.assumptions.get? label = some f ∨
    (label ≠ l₁ ∧ s.assumptions.get? label = some f) ∨
    (label ≠ l₂ ∧ t.assumptions.get? label = some f)

/-- The error by which a proof by cases is refused. It tells the first condition that does not hold:
every kind of refusal supposes that the conditions of the kinds before it do. -/
inductive CasesRefused (r s : Proof Label Atom) (l₁ : Label) (t : Proof Label Atom) (l₂ : Label) :
    RuleError Label Atom → Prop
  | disjunction : (∀ a b, r.conclusion ≠ .disj a b) →
      CasesRefused r s l₁ t l₂ (.notADisjunction r.conclusion)
  | leftLabel {a b} : r.conclusion = .disj a b → s.assumptions.get? l₁ = none →
      CasesRefused r s l₁ t l₂ (.labelNotFound l₁)
  | rightLabel {a b f} : r.conclusion = .disj a b → s.assumptions.get? l₁ = some f →
      t.assumptions.get? l₂ = none → CasesRefused r s l₁ t l₂ (.labelNotFound l₂)
  | leftCase {a b f g} : r.conclusion = .disj a b → s.assumptions.get? l₁ = some f →
      t.assumptions.get? l₂ = some g → f ≠ a → CasesRefused r s l₁ t l₂ (.caseMismatch a f)
  | rightCase {a b g} : r.conclusion = .disj a b → s.assumptions.get? l₁ = some a →
      t.assumptions.get? l₂ = some g → g ≠ b → CasesRefused r s l₁ t l₂ (.caseMismatch b g)
  | conclusions {a b} : r.conclusion = .disj a b → s.assumptions.get? l₁ = some a →
      t.assumptions.get? l₂ = some b → s.conclusion ≠ t.conclusion →
      CasesRefused r s l₁ t l₂ (.conclusionMismatch s.conclusion t.conclusion)
  | labels {a b label f g} : r.conclusion = .disj a b → s.assumptions.get? l₁ = some a →
      t.assumptions.get? l₂ = some b → s.conclusion = t.conclusion →
      LeftOpen r s l₁ t l₂ label f → LeftOpen r s l₁ t l₂ label g → f ≠ g →
      CasesRefused r s l₁ t l₂ (.inconsistentLabel label f g)

variable [LawfulBEq Label]

theorem leftOpen_iff {r s t : Proof Label Atom} {l₁ l₂ label : Label} {f : Formula Atom} :
    LeftOpen r s l₁ t l₂ label f ↔
      r.assumptions.get? label = some f ∨ (s.assumptions.erase l₁).get? label = some f ∨
        (t.assumptions.erase l₂).get? label = some f := by
  rw [LeftOpen, Assumptions.get?_erase_eq_some_iff, Assumptions.get?_erase_eq_some_iff]

variable [BEq Atom] [LawfulBEq Atom] {r s t p : Proof Label Atom} {l₁ l₂ : Label}

theorem exists_disjElim_iff :
    (∃ p, r.disjElim s l₁ t l₂ = .ok p) ↔
      ∃ a b, r.conclusion = .disj a b ∧ s.assumptions.get? l₁ = some a ∧
        t.assumptions.get? l₂ = some b ∧ s.conclusion = t.conclusion ∧
        ∀ label f g, LeftOpen r s l₁ t l₂ label f → LeftOpen r s l₁ t l₂ label g → f = g := by
  simp only [leftOpen_iff, ← Assumptions.exists_merge_merge_iff, disjElim_eq_ok_iff]
  constructor
  · rintro ⟨_, a, b, cases, c, shape, left, right, same, inner, outer, rfl⟩
    exact ⟨a, b, shape, left, right, same, cases, c, inner, outer⟩
  · rintro ⟨a, b, shape, left, right, same, cases, c, inner, outer⟩
    exact ⟨_, a, b, cases, c, shape, left, right, same, inner, outer, rfl⟩

theorem get?_of_disjElim (applied : r.disjElim s l₁ t l₂ = .ok p) {label : Label}
    {f : Formula Atom} :
    p.assumptions.get? label = some f ↔ LeftOpen r s l₁ t l₂ label f := by
  obtain ⟨_, _, _, _, -, -, -, -, inner, outer, rfl⟩ := disjElim_eq_ok_iff.mp applied
  rw [leftOpen_iff]
  exact Assumptions.get?_merge_merge inner outer

/-- Where the last two unions fail, two of the premises disagree about a label. -/
theorem leftOpen_of_clash {e : RuleError Label Atom}
    (failed : (do
      let cases ← mergeAssumptions (s.assumptions.erase l₁) (t.assumptions.erase l₂)
      let assumptions ← mergeAssumptions r.assumptions cases
      return (⟨s.conclusion, assumptions⟩ : Proof Label Atom)) = .error e) :
    ∃ label f g, e = .inconsistentLabel label f g ∧ LeftOpen r s l₁ t l₂ label f ∧
      LeftOpen r s l₁ t l₂ label g ∧ f ≠ g := by
  simp only [leftOpen_iff]
  rcases bind_eq_error_iff.mp failed with clash | ⟨cases, inner, failed⟩
  · obtain ⟨label, f, g, rfl, left, right, differ⟩ := clash_of_mergeAssumptions clash
    exact ⟨label, f, g, rfl, .inr (.inl left), .inr (.inr right), differ⟩
  · rcases bind_eq_error_iff.mp failed with clash | ⟨_, _, impossible⟩
    · obtain ⟨label, f, g, rfl, whole, inCase, differ⟩ := clash_of_mergeAssumptions clash
      rw [Assumptions.get?_merge (mergeAssumptions_eq_ok_iff.mp inner)] at inCase
      exact ⟨label, f, g, rfl, .inl whole, .inr inCase, differ⟩
    · cases impossible

theorem casesRefused_of_disjElim {e : RuleError Label Atom}
    (failed : r.disjElim s l₁ t l₂ = .error e) : CasesRefused r s l₁ t l₂ e := by
  unfold disjElim at failed
  split at failed
  case h_2 found notDisj =>
    cases failed
    exact .disjunction notDisj
  case h_1 a b shape =>
    rcases bind_eq_error_iff.mp failed with missing | ⟨f, left, failed⟩
    · obtain ⟨absent, rfl⟩ := assumed_eq_error_iff.mp missing
      exact .leftLabel shape absent
    rw [assumed_eq_ok_iff] at left
    rcases bind_eq_error_iff.mp failed with missing | ⟨g, right, failed⟩
    · obtain ⟨absent, rfl⟩ := assumed_eq_error_iff.mp missing
      exact .rightLabel shape left absent
    rw [assumed_eq_ok_iff] at right
    by_cases sameLeft : f = a
    · subst sameLeft
      by_cases sameRight : g = b
      · subst sameRight
        by_cases same : s.conclusion = t.conclusion
        · simp only [beq_self_eq_true, beq_iff_eq.mpr same, Bool.not_true, Bool.false_eq_true,
            if_false] at failed
          obtain ⟨label, f, g, rfl, one, other, differ⟩ := leftOpen_of_clash failed
          exact .labels shape left right same one other differ
        · obtain rfl : .conclusionMismatch s.conclusion t.conclusion = e := by
            simpa [same] using failed
          exact .conclusions shape left right same
      · obtain rfl : .caseMismatch b g = e := by simpa [sameRight] using failed
        exact .rightCase shape left right sameRight
    · obtain rfl : .caseMismatch a f = e := by simpa [sameLeft] using failed
      exact .leftCase shape left right sameLeft

end Proof

/-- A choice between `p` and `q`, made under a further assumption that carries the label of both
cases. -/
def sharedChoice : Proof Label String :=
  ⟨.disj (.var "p") (.var "q"),
    .ofList [(.number 1, .disj (.var "p") (.var "q")), (.name "h", .var "r")]⟩

/-- A case of that choice, which ends with `c` and leaves a side assumption open. -/
def sharedCase (hypothesis side : String) : Proof Label String :=
  ⟨.var "c", .ofList [(.name "h", .var hypothesis), (.name "x", .var side)]⟩

end Deduction
