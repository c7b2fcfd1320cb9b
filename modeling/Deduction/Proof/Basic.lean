import Deduction.Assumptions
import Deduction.Proof.Error

/-!
The rules of natural deduction for conjunction, disjunction and implication.

A `Proof` is evidence that its conclusion follows from its open assumptions, and the rules below are
meant to be the only way to obtain one:

    suppose      φ ⊢ φ
    conjIntro    Γ ⊢ φ,  Δ ⊢ ψ                     ⟹  Γ ∪ Δ ⊢ φ ∧ ψ
    conjElim     Γ ⊢ φ ∧ ψ                         ⟹  Γ ⊢ φ  (or ψ)
    disjIntro    Γ ⊢ φ                             ⟹  Γ ⊢ φ ∨ ψ  (or ψ ∨ φ)
    disjElim     Γ ⊢ φ ∨ ψ,  Δ, φ ⊢ χ,  Θ, ψ ⊢ χ   ⟹  Γ ∪ Δ ∪ Θ ⊢ χ
    implIntro    Γ, φ ⊢ ψ                          ⟹  Γ ⊢ φ → ψ
    implElim     Γ ⊢ φ,  Δ ⊢ φ → ψ                 ⟹  Γ ∪ Δ ⊢ ψ

Hypotheses are identified by labels. Discharging a label closes every hypothesis that carries it, and
two premises may share a label only if they bind it to the same formula.
-/

namespace Deduction

inductive Side where
  | left
  | right
  deriving DecidableEq, Repr

structure Proof (Label Atom : Type) [BEq Label] where
  conclusion : Formula Atom
  assumptions : Assumptions Label Atom

namespace Proof

variable {Label Atom : Type} [BEq Label] [BEq Atom] [ReflBEq Atom]

def isClosed (p : Proof Label Atom) : Bool := p.assumptions.size == 0

/-- Equality of proofs: the same conclusion from the same assumptions, in whatever order. -/
def same (p q : Proof Label Atom) : Bool :=
  p.conclusion == q.conclusion && p.assumptions == q.assumptions

instance : BEq (Proof Label Atom) := ⟨same⟩

/-- A rule yields a proof or tells why it does not apply. -/
abbrev Result (Label Atom : Type) [BEq Label] := Except (RuleError Label Atom) (Proof Label Atom)

def mergeAssumptions (a b : Assumptions Label Atom) :
    Except (RuleError Label Atom) (Assumptions Label Atom) :=
  match a.merge b with
  | .ok c => .ok c
  | .error clash => .error (.inconsistentLabel clash.label clash.left clash.right)

/-- A hypothesis proves itself, under the assumption `label`. -/
def suppose (f : Formula Atom) (label : Label) : Proof Label Atom := ⟨f, .single label f⟩

def conjIntro (p q : Proof Label Atom) : Result Label Atom := do
  let assumptions ← mergeAssumptions p.assumptions q.assumptions
  return ⟨.conj p.conclusion q.conclusion, assumptions⟩

def conjElim (p : Proof Label Atom) (side : Side) : Result Label Atom :=
  match p.conclusion, side with
  | .conj lhs _, .left => .ok ⟨lhs, p.assumptions⟩
  | .conj _ rhs, .right => .ok ⟨rhs, p.assumptions⟩
  | found, _ => .error (.notAConjunction found)

/-- Weaken a conclusion to a disjunction in which it stands on the given side. -/
def disjIntro (p : Proof Label Atom) (other : Formula Atom) : Side → Proof Label Atom
  | .left => ⟨.disj p.conclusion other, p.assumptions⟩
  | .right => ⟨.disj other p.conclusion, p.assumptions⟩

/-- From a proof of a formula and one of an implication from it, prove what is implied. -/
def implElim (p q : Proof Label Atom) : Result Label Atom :=
  match q.conclusion with
  | .impl lhs rhs =>
      if lhs == p.conclusion then do
        let assumptions ← mergeAssumptions p.assumptions q.assumptions
        return ⟨rhs, assumptions⟩
      else .error (.premiseMismatch lhs p.conclusion)
  | found => .error (.notAnImplication found)

def assumed (p : Proof Label Atom) (label : Label) :
    Except (RuleError Label Atom) (Formula Atom) :=
  match p.assumptions.get? label with
  | some f => .ok f
  | none => .error (.labelNotFound label)

def implIntro (label : Label) (q : Proof Label Atom) : Result Label Atom := do
  let antecedent ← q.assumed label
  return ⟨.impl antecedent q.conclusion, q.assumptions.erase label⟩

/-- Proof by cases. From a disjunction, and from proofs of one conclusion that assume its left side
under `l₁` and its right side under `l₂`, prove that conclusion. -/
def disjElim (r s : Proof Label Atom) (l₁ : Label) (t : Proof Label Atom) (l₂ : Label) :
    Result Label Atom :=
  match r.conclusion with
  | .disj lhs rhs => do
      let left ← s.assumed l₁
      let right ← t.assumed l₂
      if !(left == lhs) then .error (.caseMismatch lhs left)
      else if !(right == rhs) then .error (.caseMismatch rhs right)
      else if !(s.conclusion == t.conclusion) then
        .error (.conclusionMismatch s.conclusion t.conclusion)
      else
        let cases ← mergeAssumptions (s.assumptions.erase l₁) (t.assumptions.erase l₂)
        let assumptions ← mergeAssumptions r.assumptions cases
        return ⟨s.conclusion, assumptions⟩
  | found => .error (.notADisjunction found)

/-- Accept a closed proof of exactly the expected formula. -/
def shows (p : Proof Label Atom) (expected : Formula Atom) : Result Label Atom :=
  if !p.isClosed then .error (.openAssumptions p.assumptions.labels)
  else if p.conclusion == expected then .ok p
  else .error (.conclusionMismatch expected p.conclusion)

end Proof

end Deduction
