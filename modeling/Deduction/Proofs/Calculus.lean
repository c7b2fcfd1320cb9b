import Mathlib.Data.List.Basic
import Deduction.Formula.Basic

/-!
The positive fragment of intuitionistic natural deduction, without labels.

A context is a list of formulas, of which only the members matter. A formula that is discharged need
not have been used.
-/

namespace Deduction

inductive Derivable {Atom : Type} : List (Formula Atom) → Formula Atom → Prop
  | hypothesis {Γ f} : f ∈ Γ → Derivable Γ f
  | conjIntro {Γ f g} : Derivable Γ f → Derivable Γ g → Derivable Γ (.conj f g)
  | conjLeft {Γ f g} : Derivable Γ (.conj f g) → Derivable Γ f
  | conjRight {Γ f g} : Derivable Γ (.conj f g) → Derivable Γ g
  | disjLeft {Γ f g} : Derivable Γ f → Derivable Γ (.disj f g)
  | disjRight {Γ f g} : Derivable Γ g → Derivable Γ (.disj f g)
  | disjElim {Γ f g h} : Derivable Γ (.disj f g) → Derivable (f :: Γ) h → Derivable (g :: Γ) h →
      Derivable Γ h
  | implIntro {Γ f g} : Derivable (f :: Γ) g → Derivable Γ (.impl f g)
  | implElim {Γ f g} : Derivable Γ f → Derivable Γ (.impl f g) → Derivable Γ g

namespace Derivable

variable {Atom : Type}

theorem mono {Γ Δ : List (Formula Atom)} {f : Formula Atom} (h : Derivable Γ f) (sub : Γ ⊆ Δ) :
    Derivable Δ f := by
  induction h generalizing Δ with
  | hypothesis mem => exact .hypothesis (sub mem)
  | conjIntro _ _ ihl ihr => exact .conjIntro (ihl sub) (ihr sub)
  | conjLeft _ ih => exact .conjLeft (ih sub)
  | conjRight _ ih => exact .conjRight (ih sub)
  | disjLeft _ ih => exact .disjLeft (ih sub)
  | disjRight _ ih => exact .disjRight (ih sub)
  | disjElim _ _ _ ih ihl ihr =>
      exact .disjElim (ih sub) (ihl (List.cons_subset_cons _ sub))
        (ihr (List.cons_subset_cons _ sub))
  | implIntro _ ih => exact .implIntro (ih (List.cons_subset_cons _ sub))
  | implElim _ _ ih ihf => exact .implElim (ih sub) (ihf sub)

end Derivable

end Deduction
