import Deduction.Proofs.Rules
import Deduction.Proofs.Workbench.Scopes

/-!
What the rules of inference can make of terms.

A term that is given to a rule is looked at no further than its root, but the rules take terms
apart. Assumptions stay whole, so they are formulas. A conclusion may be a part of what was given,
and then it depends on the parts that can be reached. They are formulas exactly if the term is
harmless.
-/

namespace Deduction

namespace Term

/-- Whether all that rules can take out of a term are formulas. From a conjunction they take both
parts, and from a disjunction none. The right part of an implication is taken only with a proof of
the left one. -/
def harmless : Term → Bool
  | .var leaf => isFormula (.var leaf)
  | .conj lhs rhs => harmless lhs && harmless rhs
  | .disj _ _ => true
  | .impl lhs rhs => !harmless lhs || harmless rhs

theorem isFormula_of_harmless {t : Term} (safe : harmless t = true) : isFormula t = true := by
  cases t with
  | var leaf => exact safe
  | conj _ _ | disj _ _ | impl _ _ => rfl

/-- Equal leaves are both variables or both foreign. -/
theorem isFormula_var_congr {a b : Leaf} (same : (a == b) = true) :
    isFormula (.var a) = isFormula (.var b) := by
  obtain ⟨content, origin⟩ := a
  obtain ⟨content', origin'⟩ := b
  cases content with
  | name _ =>
      cases content' with
      | name _ => rfl
      | foreign _ => simp [BEq.beq, Leaf.shared, Leaf.Content.alike, Leaf.Content.same] at same
  | foreign _ =>
      cases content' with
      | name _ => simp [BEq.beq, Leaf.shared, Leaf.Content.alike, Leaf.Content.same] at same
      | foreign _ => rfl

theorem harmless_congr {s t : Term} (same : (s == t) = true) : harmless s = harmless t := by
  rw [Formula.beq_eq_agree] at same
  fun_induction Formula.agree (· == ·) s t with
  | case1 a b => exact isFormula_var_congr same
  | case2 a b c d ihl ihr =>
      obtain ⟨left, right⟩ := Bool.and_eq_true_iff.mp same
      rw [harmless, harmless, ihl left, ihr right]
  | case3 => rfl
  | case4 a b c d ihl ihr =>
      obtain ⟨left, right⟩ := Bool.and_eq_true_iff.mp same
      rw [harmless, harmless, ihl left, ihr right]
  | case5 => simp at same

theorem harmless_mapIdxFrom (number start : Nat) (f : Formula String) :
    harmless (Formula.mapIdxFrom (fun index content => (⟨content, number, index⟩ : Leaf)) start
      (contentsOf f)).1 = true := by
  induction f generalizing start with
  | var name => rfl
  | disj lhs rhs _ _ => rfl
  | conj lhs rhs ihl ihr =>
      rw [contentsOf, Formula.map] at ihl ihr ⊢
      rw [Formula.bind, Formula.mapIdxFrom, harmless, ihl, ihr]
      rfl
  | impl lhs rhs _ ihr =>
      rw [contentsOf, Formula.map] at ihr ⊢
      rw [Formula.bind, Formula.mapIdxFrom, harmless, ihr, Bool.or_true]

/-- Whatever can be read as a formula is harmless. -/
theorem harmless_ofFormula (number : Nat) (f : Formula String) :
    harmless (ofFormula number f) = true :=
  harmless_mapIdxFrom number 0 f

end Term

/-! ### One rule -/

variable {Label : Type} [BEq Label]

theorem Inference.harmless_of_apply {i : Inference (Proof Label Leaf) Label Leaf}
    {p : Proof Label Leaf} (premises : ∀ q ∈ i.refs, Term.harmless q.conclusion = true)
    (given : ∀ t ∈ i.formulas, Term.harmless t = true) (applied : i.apply = .ok p) :
    Term.harmless p.conclusion = true := by
  cases i with
  | suppose t label =>
      cases applied
      exact given t (by simp [formulas])
  | conjIntro p q =>
      obtain ⟨_, _, rfl⟩ := Proof.conjIntro_eq_ok_iff.mp applied
      have left := premises p (by simp [refs])
      have right := premises q (by simp [refs])
      rw [Term.harmless, left, right]
      rfl
  | conjElim p side =>
      obtain ⟨lhs, rhs, conclusion, rfl⟩ := Proof.conjElim_eq_ok_iff.mp applied
      have whole := premises p (by simp [refs])
      rw [conclusion, Term.harmless, Bool.and_eq_true] at whole
      cases side with
      | left => exact whole.1
      | right => exact whole.2
  | implElim p q =>
      obtain ⟨lhs, rhs, _, conclusion, same, _, rfl⟩ := Proof.implElim_eq_ok_iff_beq.mp applied
      have whole := premises q (by simp [refs])
      rw [conclusion, Term.harmless, Term.harmless_congr same, premises p (by simp [refs])] at whole
      exact whole
  | implIntro label q =>
      obtain ⟨t, _, rfl⟩ := Proof.implIntro_eq_ok_iff.mp applied
      rw [Term.harmless, premises q (by simp [refs]), Bool.or_true]
  | disjIntro p other side =>
      obtain rfl := Except.ok.inj applied
      rw [Proof.disjIntro_eq]
      cases side with
      | left => rfl
      | right => rfl
  | disjElim r s l₁ t l₂ =>
      obtain ⟨_, _, _, _, _, _, _, _, _, _, _, _, _, _, rfl⟩ :=
        Proof.disjElim_eq_ok_iff_beq.mp applied
      exact premises s (by simp [refs])

/-! ### Any number of rules -/

/-- A rule whose arguments pass all checks. A term has to be a formula at its root, and what labels
a hypothesis has to be fit for a key. -/
structure Inference.Admitted {Ref : Type} (accepted : Term → Prop) (i : Inference Ref Key Leaf) :
    Prop where
  formulas : ∀ t ∈ i.formulas, accepted t ∧ Term.isFormula t = true
  label : ∀ t key, i = .suppose t key → key.unhashable? = none

/-- Rules that take only proofs need no check of terms. -/
theorem Inference.Admitted.of_formulas {Ref : Type} {accepted : Term → Prop}
    {i : Inference Ref Key Leaf} (none : i.formulas = []) : i.Admitted accepted := by
  constructor
  · simp [none]
  · rintro t key rfl
    cases none

/-- The proofs that rules give, if they are given no other terms than the accepted ones. -/
inductive Minted (accepted : Term → Prop) : Proof Key Leaf → Prop
  | apply {i : Inference (Proof Key Leaf) Key Leaf} {p} : (∀ q ∈ i.refs, Minted accepted q) →
      i.Admitted accepted → i.apply = .ok p → Minted accepted p

namespace Minted

variable {accepted : Term → Prop} {p : Proof Key Leaf}

theorem suppose {t : Term} {key : Key} (accepts : accepted t) (isFormula : Term.isFormula t = true)
    (hashable : key.unhashable? = none) : Minted accepted (.suppose t key) := by
  refine .apply (i := .suppose t key) (by simp [Inference.refs]) ⟨?_, ?_⟩ rfl
  · simp [Inference.formulas, accepts, isFormula]
  · rintro _ _ ⟨⟩
    exact hashable

theorem isFormula_of_mem (minted : Minted accepted p) {t : Term}
    (mem : t ∈ p.assumptions.formulas) : Term.isFormula t = true := by
  induction minted generalizing t with
  | apply _ admitted applied ih =>
      rcases Inference.mem_formulas_of_apply applied mem with given | ⟨q, used, mem⟩
      · exact (admitted.formulas t given).2
      · exact ih q used mem

theorem harmless (minted : Minted accepted p)
    (safe : ∀ t, accepted t → Term.isFormula t = true → Term.harmless t = true) :
    Term.harmless p.conclusion = true := by
  induction minted with
  | apply _ admitted applied ih =>
      refine Inference.harmless_of_apply ih (fun t given => ?_) applied
      obtain ⟨accepts, isFormula⟩ := admitted.formulas t given
      exact safe t accepts isFormula

/-- Hypotheses have fresh labels below a number. -/
def LabelsBelow (n : Nat) (p : Proof Key Leaf) : Prop :=
  ∀ entry ∈ p.assumptions.entries, ∃ k < n, entry.1 = FreshLabels.fresh k

/-- A proof of an implication from something harmless leads to one of its right part. The left part
is supposed under a new label. -/
theorem exists_right (minted : Minted accepted p)
    (accepts : ∀ t, Term.harmless t = true → accepted t) {n : Nat} (below : LabelsBelow n p)
    {lhs rhs : Term} (conclusion : p.conclusion = .impl lhs rhs)
    (safe : Term.harmless lhs = true) :
    ∃ q, Minted accepted q ∧ q.conclusion = rhs ∧ LabelsBelow (n + 1) q := by
  have supposed : Minted accepted (.suppose lhs (FreshLabels.fresh n)) :=
    .suppose (accepts lhs safe) (Term.isFormula_of_harmless safe) rfl
  have apart : Ordered.Distinct ([(FreshLabels.fresh n, lhs)] ++ p.assumptions.entries) := by
    refine List.pairwise_cons.mpr ⟨fun entry mem => ?_, p.assumptions.distinct⟩
    obtain ⟨k, less, label⟩ := below entry mem
    rw [label, LawfulFreshLabels.beq_fresh]
    exact beq_false_of_ne less.ne'
  obtain ⟨c, merged, entries⟩ := Assumptions.exists_insertAll_of_distinct
    (a := .single (FreshLabels.fresh n) lhs) apart
  have applied : (Inference.implElim (.suppose lhs (FreshLabels.fresh n)) p).apply =
      .ok ⟨rhs, c⟩ :=
    Proof.implElim_eq_ok_iff_beq.mpr ⟨lhs, rhs, c, conclusion, BEq.rfl, merged, rfl⟩
  refine ⟨⟨rhs, c⟩, .apply ?_ (.of_formulas rfl) applied, rfl, ?_⟩
  · simp [Inference.refs, supposed, minted]
  · intro entry mem
    rw [entries] at mem
    rcases List.mem_cons.mp mem with rfl | mem
    · exact ⟨n, n.lt_succ_self, rfl⟩
    · obtain ⟨k, less, label⟩ := below entry mem
      exact ⟨k, Nat.lt_succ_of_lt less, label⟩

/-- From a conclusion that is not harmless rules get to one that is no formula. -/
theorem exists_foreign {t : Term} (minted : Minted accepted p) (conclusion : p.conclusion = t)
    (accepts : ∀ t, Term.harmless t = true → accepted t) {n : Nat} (below : LabelsBelow n p)
    (harmful : Term.harmless t = false) :
    ∃ q, Minted accepted q ∧ Term.isFormula q.conclusion = false := by
  induction t generalizing p n with
  | var leaf => exact ⟨p, minted, by rw [conclusion]; exact harmful⟩
  | disj lhs rhs _ _ => cases harmful
  | conj lhs rhs ihl ihr =>
      have part (side : Side) : Minted accepted ⟨side.pick lhs rhs, p.assumptions⟩ :=
        .apply (i := .conjElim p side) (by simp [Inference.refs, minted]) (.of_formulas rfl)
          (Proof.conjElim_eq_ok_iff.mpr ⟨lhs, rhs, conclusion, rfl⟩)
      rw [Term.harmless, Bool.and_eq_false_iff] at harmful
      rcases harmful with left | right
      · exact ihl (part .left) rfl below left
      · exact ihr (part .right) rfl below right
  | impl lhs rhs _ ihr =>
      rw [Term.harmless, Bool.or_eq_false_iff, Bool.not_eq_false'] at harmful
      obtain ⟨q, derived, right, below⟩ := minted.exists_right accepts below conclusion harmful.1
      exact ihr derived right below harmful.2

end Minted

end Deduction
