import Deduction.Proofs.Rules

/-!
Derivations as trees: every inner node applies a rule of inference to the proofs of its subtrees,
and the leaves suppose hypotheses.
-/

namespace Deduction

inductive Tree (Label Atom : Type) where
  | suppose (f : Formula Atom) (label : Label)
  | conjIntro (left right : Tree Label Atom)
  | conjElim (premise : Tree Label Atom) (side : Side)
  | disjIntro (premise : Tree Label Atom) (other : Formula Atom) (side : Side)
  | implElim (premise implication : Tree Label Atom)
  | implIntro (label : Label) (premise : Tree Label Atom)
  | disjElim (disjunction leftCase : Tree Label Atom) (leftLabel : Label)
      (rightCase : Tree Label Atom) (rightLabel : Label)
  deriving DecidableEq, Repr

namespace Tree

variable {Label Atom : Type} [BEq Label] [BEq Atom] [ReflBEq Atom]

/-- Apply the rules from the leaves to the root, as long as they apply. -/
def check : Tree Label Atom → Proof.Result Label Atom
  | .suppose f label => .ok (.suppose f label)
  | .conjIntro left right => do
      let p ← left.check
      let q ← right.check
      p.conjIntro q
  | .conjElim premise side => do
      let p ← premise.check
      p.conjElim side
  | .disjIntro premise other side => do
      let p ← premise.check
      return p.disjIntro other side
  | .implElim premise implication => do
      let p ← premise.check
      let q ← implication.check
      p.implElim q
  | .implIntro label premise => do
      let q ← premise.check
      q.implIntro label
  | .disjElim disjunction leftCase leftLabel rightCase rightLabel => do
      let r ← disjunction.check
      let s ← leftCase.check
      let t ← rightCase.check
      r.disjElim s leftLabel t rightLabel

/-- The proof at the root of a tree in which every rule applies. -/
inductive Yields : Tree Label Atom → Proof Label Atom → Prop
  | suppose {f label} : Yields (.suppose f label) (.suppose f label)
  | conjIntro {left right p q r} : Yields left p → Yields right q → p.conjIntro q = .ok r →
      Yields (.conjIntro left right) r
  | conjElim {premise side p r} : Yields premise p → p.conjElim side = .ok r →
      Yields (.conjElim premise side) r
  | disjIntro {premise other side p} : Yields premise p →
      Yields (.disjIntro premise other side) (p.disjIntro other side)
  | implElim {premise implication p q r} : Yields premise p → Yields implication q →
      p.implElim q = .ok r → Yields (.implElim premise implication) r
  | implIntro {label premise q r} : Yields premise q → q.implIntro label = .ok r →
      Yields (.implIntro label premise) r
  | disjElim {disjunction leftCase leftLabel rightCase rightLabel r s t p} :
      Yields disjunction r → Yields leftCase s → Yields rightCase t →
      r.disjElim s leftLabel t rightLabel = .ok p →
      Yields (.disjElim disjunction leftCase leftLabel rightCase rightLabel) p

theorem Yields.check {tree : Tree Label Atom} {p : Proof Label Atom} (yields : tree.Yields p) :
    tree.check = .ok p := by
  induction yields with
  | suppose => rfl
  | conjIntro _ _ applied ihl ihr => simp [Tree.check, ihl, ihr, applied]
  | conjElim _ applied ih => simp [Tree.check, ih, applied]
  | disjIntro _ ih => simp [Tree.check, ih, pure, Except.pure]
  | implElim _ _ applied ihp ihq => simp [Tree.check, ihp, ihq, applied]
  | implIntro _ applied ih => simp [Tree.check, ih, applied]
  | disjElim _ _ _ applied ihr ihs iht =>
      simp [Tree.check, ihr, ihs, iht, applied]

theorem yields_of_check {tree : Tree Label Atom} {p : Proof Label Atom}
    (checked : tree.check = .ok p) : tree.Yields p := by
  induction tree generalizing p with
  | suppose f label =>
      obtain rfl : Proof.suppose f label = p := by simpa [Tree.check] using checked
      exact .suppose
  | conjIntro left right ihl ihr =>
      simp only [Tree.check, bind_eq_ok_iff] at checked
      obtain ⟨_, hl, _, hr, applied⟩ := checked
      exact .conjIntro (ihl hl) (ihr hr) applied
  | conjElim premise side ih =>
      simp only [Tree.check, bind_eq_ok_iff] at checked
      obtain ⟨_, h, applied⟩ := checked
      exact .conjElim (ih h) applied
  | disjIntro premise other side ih =>
      simp only [Tree.check, bind_eq_ok_iff, pure_eq_ok_iff] at checked
      obtain ⟨_, h, rfl⟩ := checked
      exact .disjIntro (ih h)
  | implElim premise implication ihp ihq =>
      simp only [Tree.check, bind_eq_ok_iff] at checked
      obtain ⟨_, hp, _, hq, applied⟩ := checked
      exact .implElim (ihp hp) (ihq hq) applied
  | implIntro label premise ih =>
      simp only [Tree.check, bind_eq_ok_iff] at checked
      obtain ⟨_, h, applied⟩ := checked
      exact .implIntro (ih h) applied
  | disjElim disjunction leftCase leftLabel rightCase rightLabel ihr ihs iht =>
      simp only [Tree.check, bind_eq_ok_iff] at checked
      obtain ⟨_, hr, _, hs, _, ht, applied⟩ := checked
      exact .disjElim (ihr hr) (ihs hs) (iht ht) applied

theorem check_eq_ok_iff {tree : Tree Label Atom} {p : Proof Label Atom} :
    tree.check = .ok p ↔ tree.Yields p :=
  ⟨yields_of_check, Yields.check⟩

end Tree

end Deduction
