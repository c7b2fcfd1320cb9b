import Deduction.Proofs.Assumptions
import Deduction.Script.Basic

/-!
When the rules of inference apply, and what they yield.
-/

namespace Deduction

@[simp]
theorem ok_bind {Error A B : Type} (a : A) (next : A → Except Error B) :
    (.ok a >>= next) = next a := rfl

theorem bind_eq_ok_iff {Error A B : Type} {x : Except Error A} {next : A → Except Error B} {b : B} :
    (x >>= next) = .ok b ↔ ∃ a, x = .ok a ∧ next a = .ok b := by
  cases x with
  | error e => simp [bind, Except.bind]
  | ok a => simp

theorem bind_eq_error_iff {Error A B : Type} {x : Except Error A} {next : A → Except Error B}
    {e : Error} : (x >>= next) = .error e ↔ x = .error e ∨ ∃ a, x = .ok a ∧ next a = .error e := by
  cases x with
  | error e' => simp [bind, Except.bind]
  | ok a => simp

theorem pure_eq_ok_iff {Error A : Type} {a b : A} : (pure a : Except Error A) = .ok b ↔ b = a := by
  simp [pure, Except.pure, eq_comm]

/-- The part of a conjunction on a side. -/
def Side.pick {Atom : Type} (lhs rhs : Formula Atom) : Side → Formula Atom
  | .left => lhs
  | .right => rhs

/-- A disjunction in which a formula stands on a side. -/
def Side.join {Atom : Type} (f other : Formula Atom) : Side → Formula Atom
  | .left => .disj f other
  | .right => .disj other f

namespace Proof

variable {Label Atom : Type} [BEq Label]

@[simp]
theorem mergeAssumptions_eq_ok_iff [BEq Atom] [ReflBEq Atom] {a b c : Assumptions Label Atom} :
    mergeAssumptions a b = .ok c ↔ a.merge b = .ok c := by
  unfold mergeAssumptions
  split <;> simp_all

/-- Sets that cannot be merged bind some label to different formulas. -/
theorem clash_of_mergeAssumptions [LawfulBEq Label] [BEq Atom] [LawfulBEq Atom]
    {a b : Assumptions Label Atom} {e : RuleError Label Atom}
    (failed : mergeAssumptions a b = .error e) :
    ∃ label f g, e = .inconsistentLabel label f g ∧ a.get? label = some f ∧
      b.get? label = some g ∧ f ≠ g := by
  unfold mergeAssumptions at failed
  split at failed
  · cases failed
  · rename_i clash merged
    cases failed
    exact ⟨clash.label, clash.left, clash.right, rfl, Assumptions.get?_of_merge_error merged⟩

theorem get?_of_mergeAssumptions_error [LawfulBEq Label] [BEq Atom] [LawfulBEq Atom]
    {a b : Assumptions Label Atom} {label : Label} {f g : Formula Atom}
    (h : mergeAssumptions a b = .error (.inconsistentLabel label f g)) :
    a.get? label = some f ∧ b.get? label = some g ∧ f ≠ g := by
  obtain ⟨_, _, _, ⟨⟩, facts⟩ := clash_of_mergeAssumptions h
  exact facts

@[simp]
theorem assumed_eq_ok_iff {p : Proof Label Atom} {label : Label} {f : Formula Atom} :
    p.assumed label = .ok f ↔ p.assumptions.get? label = some f := by
  unfold assumed
  split <;> simp_all

theorem assumed_eq_error_iff {p : Proof Label Atom} {label : Label} {e : RuleError Label Atom} :
    p.assumed label = .error e ↔ p.assumptions.get? label = none ∧ .labelNotFound label = e := by
  unfold assumed
  split <;> simp_all

theorem conjIntro_eq_ok_iff [BEq Atom] [ReflBEq Atom] {p q r : Proof Label Atom} :
    p.conjIntro q = .ok r ↔
      ∃ c, p.assumptions.merge q.assumptions = .ok c ∧
        r = ⟨.conj p.conclusion q.conclusion, c⟩ := by
  simp only [conjIntro, bind_eq_ok_iff, pure_eq_ok_iff, mergeAssumptions_eq_ok_iff]

theorem conjElim_eq_ok_iff {p r : Proof Label Atom} {side : Side} :
    p.conjElim side = .ok r ↔
      ∃ lhs rhs, p.conclusion = .conj lhs rhs ∧ r = ⟨side.pick lhs rhs, p.assumptions⟩ := by
  cases side <;> cases conclusion : p.conclusion <;>
    simp [conjElim, conclusion, Side.pick, eq_comm]

theorem disjIntro_eq (p : Proof Label Atom) (other : Formula Atom) (side : Side) :
    p.disjIntro other side = ⟨side.join p.conclusion other, p.assumptions⟩ := by
  cases side <;> rfl

theorem implElim_eq_ok_iff_beq [BEq Atom] [ReflBEq Atom] {p q r : Proof Label Atom} :
    p.implElim q = .ok r ↔
      ∃ lhs rhs c, q.conclusion = .impl lhs rhs ∧ (lhs == p.conclusion) = true ∧
        p.assumptions.merge q.assumptions = .ok c ∧ r = ⟨rhs, c⟩ := by
  cases conclusion : q.conclusion with
  | impl lhs rhs =>
      cases same : lhs == p.conclusion with
      | true =>
          simp only [implElim, conclusion, same, if_true, bind_eq_ok_iff, pure_eq_ok_iff,
            mergeAssumptions_eq_ok_iff]
          simp [same]
      | false => simp [implElim, conclusion, same]
  | var _ => simp [implElim, conclusion]
  | conj _ _ => simp [implElim, conclusion]
  | disj _ _ => simp [implElim, conclusion]

theorem implElim_eq_ok_iff [BEq Atom] [LawfulBEq Atom] {p q r : Proof Label Atom} :
    p.implElim q = .ok r ↔
      ∃ rhs c, q.conclusion = .impl p.conclusion rhs ∧
        p.assumptions.merge q.assumptions = .ok c ∧ r = ⟨rhs, c⟩ := by
  simp only [implElim_eq_ok_iff_beq, beq_iff_eq]
  constructor
  · rintro ⟨_, rhs, c, conclusion, rfl, merged, rfl⟩
    exact ⟨rhs, c, conclusion, merged, rfl⟩
  · rintro ⟨rhs, c, conclusion, merged, rfl⟩
    exact ⟨_, rhs, c, conclusion, rfl, merged, rfl⟩

theorem implIntro_eq_ok_iff {label : Label} {q r : Proof Label Atom} :
    q.implIntro label = .ok r ↔
      ∃ f, q.assumptions.get? label = some f ∧
        r = ⟨.impl f q.conclusion, q.assumptions.erase label⟩ := by
  simp only [implIntro, bind_eq_ok_iff, pure_eq_ok_iff, assumed_eq_ok_iff]

theorem implIntro_eq_error_iff {label : Label} {q : Proof Label Atom} {e : RuleError Label Atom} :
    q.implIntro label = .error e ↔
      q.assumptions.get? label = none ∧ .labelNotFound label = e := by
  simp [implIntro, bind_eq_error_iff, assumed_eq_error_iff, pure, Except.pure]

theorem disjElim_eq_ok_iff_beq [BEq Atom] [ReflBEq Atom] {r s t p : Proof Label Atom}
    {l₁ l₂ : Label} :
    r.disjElim s l₁ t l₂ = .ok p ↔
      ∃ lhs rhs left right cases c, r.conclusion = .disj lhs rhs ∧
        s.assumptions.get? l₁ = some left ∧ t.assumptions.get? l₂ = some right ∧
        (left == lhs) = true ∧ (right == rhs) = true ∧ (s.conclusion == t.conclusion) = true ∧
        (s.assumptions.erase l₁).merge (t.assumptions.erase l₂) = .ok cases ∧
        r.assumptions.merge cases = .ok c ∧ p = ⟨s.conclusion, c⟩ := by
  cases conclusion : r.conclusion with
  | disj lhs rhs =>
      simp only [disjElim, conclusion, bind_eq_ok_iff, assumed_eq_ok_iff]
      constructor
      · rintro ⟨left, hl, right, hr, h⟩
        split_ifs at h with notLeft notRight notSame
        simp only [bind_eq_ok_iff, pure_eq_ok_iff, mergeAssumptions_eq_ok_iff] at h
        obtain ⟨cases, hc, c, ha, rfl⟩ := h
        exact ⟨lhs, rhs, left, right, cases, c, rfl, hl, hr, by simpa using notLeft,
          by simpa using notRight, by simpa using notSame, hc, ha, rfl⟩
      · rintro ⟨_, _, left, right, cases, c, ⟨⟩, hl, hr, sameLeft, sameRight, same, hc, ha, rfl⟩
        refine ⟨left, hl, right, hr, ?_⟩
        simp only [sameLeft, sameRight, same, Bool.not_true, Bool.false_eq_true, if_false,
          bind_eq_ok_iff, pure_eq_ok_iff, mergeAssumptions_eq_ok_iff]
        exact ⟨cases, hc, c, ha, rfl⟩
  | var _ => simp [disjElim, conclusion]
  | conj _ _ => simp [disjElim, conclusion]
  | impl _ _ => simp [disjElim, conclusion]

theorem disjElim_eq_ok_iff [BEq Atom] [LawfulBEq Atom] {r s t p : Proof Label Atom}
    {l₁ l₂ : Label} :
    r.disjElim s l₁ t l₂ = .ok p ↔
      ∃ lhs rhs cases c, r.conclusion = .disj lhs rhs ∧
        s.assumptions.get? l₁ = some lhs ∧ t.assumptions.get? l₂ = some rhs ∧
        s.conclusion = t.conclusion ∧
        (s.assumptions.erase l₁).merge (t.assumptions.erase l₂) = .ok cases ∧
        r.assumptions.merge cases = .ok c ∧ p = ⟨s.conclusion, c⟩ := by
  simp only [disjElim_eq_ok_iff_beq, beq_iff_eq]
  constructor
  · rintro ⟨lhs, rhs, _, _, cases, c, conclusion, hl, hr, rfl, rfl, same, hc, ha, rfl⟩
    exact ⟨_, _, cases, c, conclusion, hl, hr, same, hc, ha, rfl⟩
  · rintro ⟨lhs, rhs, cases, c, conclusion, hl, hr, same, hc, ha, rfl⟩
    exact ⟨lhs, rhs, lhs, rhs, cases, c, conclusion, hl, hr, rfl, rfl, same, hc, ha, rfl⟩

theorem shows_eq_ok_iff [BEq Atom] [LawfulBEq Atom] {p q : Proof Label Atom}
    {expected : Formula Atom} :
    p.shows expected = .ok q ↔
      p.assumptions = .empty ∧ p.conclusion = expected ∧ q = p := by
  by_cases closed : p.assumptions.size = 0
  · have none := Assumptions.eq_empty_of_size closed
    by_cases same : p.conclusion = expected
    · have accepted : p.shows expected = .ok p := by simp [shows, isClosed, closed, same]
      simp [accepted, none, same, eq_comm]
    · simp [shows, isClosed, closed, same]
  · have some : p.assumptions ≠ .empty := by
      intro eq
      simp [eq, Assumptions.size, Assumptions.empty] at closed
    simp [shows, isClosed, closed, some]

end Proof

/-- What a rule leaves open was open in a premise, or was given to the rule. -/
theorem Inference.mem_formulas_of_apply {Label Atom : Type} [BEq Label] [BEq Atom] [ReflBEq Atom]
    {i : Inference (Proof Label Atom) Label Atom} {p : Proof Label Atom}
    (applied : i.apply = .ok p) {f : Formula Atom} (mem : f ∈ p.assumptions.formulas) :
    f ∈ i.formulas ∨ ∃ q ∈ i.refs, f ∈ q.assumptions.formulas := by
  cases i with
  | suppose g label =>
      cases applied
      exact .inl mem
  | conjIntro p q =>
      obtain ⟨c, merged, rfl⟩ := Proof.conjIntro_eq_ok_iff.mp applied
      rcases Assumptions.mem_formulas_of_merge merged mem with left | right
      · exact .inr ⟨p, by simp [refs], left⟩
      · exact .inr ⟨q, by simp [refs], right⟩
  | conjElim p side =>
      obtain ⟨_, _, _, rfl⟩ := Proof.conjElim_eq_ok_iff.mp applied
      exact .inr ⟨p, by simp [refs], mem⟩
  | implElim p q =>
      obtain ⟨_, _, c, _, _, merged, rfl⟩ := Proof.implElim_eq_ok_iff_beq.mp applied
      rcases Assumptions.mem_formulas_of_merge merged mem with left | right
      · exact .inr ⟨p, by simp [refs], left⟩
      · exact .inr ⟨q, by simp [refs], right⟩
  | implIntro label q =>
      obtain ⟨_, _, rfl⟩ := Proof.implIntro_eq_ok_iff.mp applied
      exact .inr ⟨q, by simp [refs], Assumptions.mem_formulas_of_erase mem⟩
  | disjIntro p other side =>
      obtain rfl := Except.ok.inj applied
      rw [Proof.disjIntro_eq] at mem
      exact .inr ⟨p, by simp [refs], mem⟩
  | disjElim r s l₁ t l₂ =>
      obtain ⟨_, _, _, _, cases, c, _, _, _, _, _, _, both, merged, rfl⟩ :=
        Proof.disjElim_eq_ok_iff_beq.mp applied
      rcases Assumptions.mem_formulas_of_merge merged mem with whole | inCase
      · exact .inr ⟨r, by simp [refs], whole⟩
      · rcases Assumptions.mem_formulas_of_merge both inCase with left | right
        · exact .inr ⟨s, by simp [refs], Assumptions.mem_formulas_of_erase left⟩
        · exact .inr ⟨t, by simp [refs], Assumptions.mem_formulas_of_erase right⟩

end Deduction
