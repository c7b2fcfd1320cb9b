import Mathlib.Order.Basic
import Deduction.Proofs.Calculus

/-!
Kripke models of positive intuitionistic logic, and truth tables as the models with one world.

What is derivable from a context is forced wherever the context is.
-/

namespace Deduction

universe u

/-- Worlds in a preorder; what holds of an atom goes on to hold in all later worlds. -/
structure Kripke (Atom : Type) where
  World : Type u
  [order : Preorder World]
  holds : World → Atom → Prop
  persists {w v : World} {name : Atom} : w ≤ v → holds w name → holds v name

attribute [instance] Kripke.order

/-- The truth value of a formula under a valuation of its atoms. -/
def Formula.eval {Atom : Type} (value : Atom → Bool) : Formula Atom → Bool
  | .var name => value name
  | .conj lhs rhs => lhs.eval value && rhs.eval value
  | .disj lhs rhs => lhs.eval value || rhs.eval value
  | .impl lhs rhs => !lhs.eval value || rhs.eval value

namespace Kripke

variable {Atom : Type}

def Forces (K : Kripke.{u} Atom) : K.World → Formula Atom → Prop
  | w, .var name => K.holds w name
  | w, .conj lhs rhs => K.Forces w lhs ∧ K.Forces w rhs
  | w, .disj lhs rhs => K.Forces w lhs ∨ K.Forces w rhs
  | w, .impl lhs rhs => ∀ v, w ≤ v → K.Forces v lhs → K.Forces v rhs

theorem Forces.persists {K : Kripke.{u} Atom} {w v : K.World} {f : Formula Atom}
    (forced : K.Forces w f) (le : w ≤ v) : K.Forces v f := by
  induction f with
  | var name => exact K.persists le forced
  | conj lhs rhs ihl ihr => exact ⟨ihl forced.1, ihr forced.2⟩
  | disj lhs rhs ihl ihr => exact forced.imp ihl ihr
  | impl lhs rhs _ _ =>
      intro u later
      exact forced u (le_trans le later)

/-- Forcing of a whole context. -/
def ForcesAll (K : Kripke.{u} Atom) (w : K.World) (Γ : List (Formula Atom)) : Prop :=
  ∀ f ∈ Γ, K.Forces w f

theorem ForcesAll.cons {K : Kripke.{u} Atom} {w v : K.World} {Γ : List (Formula Atom)}
    {f : Formula Atom} (forced : K.ForcesAll w Γ) (le : w ≤ v) (head : K.Forces v f) :
    K.ForcesAll v (f :: Γ) := by
  intro g mem
  rcases List.mem_cons.mp mem with rfl | mem
  · exact head
  · exact (forced g mem).persists le

end Kripke

theorem Derivable.forces {Atom : Type} {Γ : List (Formula Atom)} {f : Formula Atom}
    (h : Derivable Γ f) (K : Kripke.{u} Atom) {w : K.World} (forced : K.ForcesAll w Γ) :
    K.Forces w f := by
  induction h generalizing w with
  | hypothesis mem => exact forced _ mem
  | conjIntro _ _ ihl ihr => exact ⟨ihl forced, ihr forced⟩
  | conjLeft _ ih => exact (ih forced).1
  | conjRight _ ih => exact (ih forced).2
  | disjLeft _ ih => exact .inl (ih forced)
  | disjRight _ ih => exact .inr (ih forced)
  | disjElim _ _ _ ih ihl ihr =>
      rcases ih forced with left | right
      · exact ihl (forced.cons le_rfl left)
      · exact ihr (forced.cons le_rfl right)
  | implIntro _ ih =>
      intro v le head
      exact ih (forced.cons le head)
  | implElim _ _ ih ihf => exact ihf forced _ le_rfl (ih forced)

/-! ### Truth tables -/

namespace Kripke

variable {Atom : Type}

/-- The model with one world, in which the true atoms hold. -/
def ofValuation (value : Atom → Bool) : Kripke.{u} Atom where
  World := PUnit
  order :=
    { le := fun _ _ => True
      lt := fun _ _ => False
      lt_iff_le_not_ge := fun _ _ => by simp
      le_refl := fun _ => trivial
      le_trans := fun _ _ _ _ _ => trivial }
  holds _ name := value name = true
  persists _ holds := holds

@[simp]
theorem forces_ofValuation {value : Atom → Bool} {w : (ofValuation.{u} value).World}
    {f : Formula Atom} : (ofValuation value).Forces w f ↔ f.eval value = true := by
  induction f generalizing w with
  | var name => exact Iff.rfl
  | conj lhs rhs ihl ihr => simp only [Forces, Formula.eval, Bool.and_eq_true, ihl, ihr]
  | disj lhs rhs ihl ihr => simp only [Forces, Formula.eval, Bool.or_eq_true, ihl, ihr]
  | impl lhs rhs ihl ihr =>
      simp only [Forces, Formula.eval, Bool.or_eq_true, Bool.not_eq_true', ihl, ihr]
      constructor
      · intro forced
        cases truth : lhs.eval value with
        | false => exact .inl rfl
        | true => exact .inr (forced w le_rfl truth)
      · rintro (truth | truth) v _ left
        · simp [truth] at left
        · exact truth

end Kripke

end Deduction
