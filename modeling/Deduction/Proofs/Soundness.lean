import Deduction.Proofs.Kripke
import Deduction.Proofs.Tree

/-!
Soundness of the rules of inference.

What a tree proves is derivable, in the calculus without labels, from the formulas that its open
labels name. Kripke models and truth tables then follow from the calculus.
-/

namespace Deduction

universe u

namespace Assumptions

variable {Label Atom : Type} [BEq Label] [LawfulBEq Label]

theorem formulas_subset_cons_erase {a : Assumptions Label Atom} {label : Label} {f : Formula Atom}
    (bound : a.get? label = some f) : a.formulas ⊆ f :: (a.erase label).formulas := by
  intro g mem
  obtain ⟨l, found⟩ := mem_formulas.mp mem
  by_cases same : label = l
  · subst same
    obtain rfl : f = g := by simpa [bound] using found
    exact List.mem_cons_self
  · exact List.mem_cons_of_mem _ (mem_formulas.mpr ⟨l, by simpa [same] using found⟩)

variable [BEq Atom] [LawfulBEq Atom] {a b c : Assumptions Label Atom}

theorem formulas_subset_merge_left (union : a.merge b = .ok c) : a.formulas ⊆ c.formulas := by
  intro f mem
  obtain ⟨label, found⟩ := mem_formulas.mp mem
  exact mem_formulas.mpr ⟨label, (get?_merge union).mpr (.inl found)⟩

theorem formulas_subset_merge_right (union : a.merge b = .ok c) : b.formulas ⊆ c.formulas := by
  intro f mem
  obtain ⟨label, found⟩ := mem_formulas.mp mem
  exact mem_formulas.mpr ⟨label, (get?_merge union).mpr (.inr found)⟩

end Assumptions

variable {Label Atom : Type} [BEq Label] [LawfulBEq Label] [BEq Atom] [LawfulBEq Atom]

open Assumptions in
theorem Tree.Yields.derivable {tree : Tree Label Atom} {p : Proof Label Atom}
    (yields : tree.Yields p) : Derivable p.assumptions.formulas p.conclusion := by
  induction yields with
  | @suppose f label => exact .hypothesis (mem_formulas.mpr ⟨label, by simp [Proof.suppose]⟩)
  | conjIntro _ _ applied ihl ihr =>
      obtain ⟨c, union, rfl⟩ := Proof.conjIntro_eq_ok_iff.mp applied
      exact .conjIntro (ihl.mono (formulas_subset_merge_left union))
        (ihr.mono (formulas_subset_merge_right union))
  | @conjElim premise side p r _ applied ih =>
      obtain ⟨lhs, rhs, conclusion, rfl⟩ := Proof.conjElim_eq_ok_iff.mp applied
      rw [conclusion] at ih
      cases side with
      | left => exact .conjLeft ih
      | right => exact .conjRight ih
  | @disjIntro premise other side p _ ih =>
      rw [Proof.disjIntro_eq]
      cases side with
      | left => exact .disjLeft ih
      | right => exact .disjRight ih
  | implElim _ _ applied ihp ihq =>
      obtain ⟨rhs, c, conclusion, union, rfl⟩ := Proof.implElim_eq_ok_iff.mp applied
      rw [conclusion] at ihq
      exact .implElim (ihp.mono (formulas_subset_merge_left union))
        (ihq.mono (formulas_subset_merge_right union))
  | implIntro _ applied ih =>
      obtain ⟨f, bound, rfl⟩ := Proof.implIntro_eq_ok_iff.mp applied
      exact .implIntro (ih.mono (formulas_subset_cons_erase bound))
  | disjElim _ _ _ applied ihr ihs iht =>
      obtain ⟨lhs, rhs, both, c, conclusion, left, right, same, cases, union, rfl⟩ :=
        Proof.disjElim_eq_ok_iff.mp applied
      have kept := formulas_subset_merge_right union
      rw [conclusion] at ihr
      rw [← same] at iht
      refine .disjElim (ihr.mono (formulas_subset_merge_left union)) (ihs.mono ?_) (iht.mono ?_)
      · have leftKept := List.Subset.trans (formulas_subset_merge_left cases) kept
        exact List.Subset.trans (formulas_subset_cons_erase left)
          (List.cons_subset_cons _ leftKept)
      · have rightKept := List.Subset.trans (formulas_subset_merge_right cases) kept
        exact List.Subset.trans (formulas_subset_cons_erase right)
          (List.cons_subset_cons _ rightKept)

theorem Tree.Yields.derivable_of_shows {tree : Tree Label Atom} {p q : Proof Label Atom}
    (yields : tree.Yields p) {goal : Formula Atom} (shown : p.shows goal = .ok q) :
    Derivable [] goal := by
  obtain ⟨closed, rfl, -⟩ := Proof.shows_eq_ok_iff.mp shown
  simpa [closed, Assumptions.formulas, Assumptions.empty] using yields.derivable

/-- Every proof that the rules yield is sound: wherever its assumptions are forced, its conclusion
is, and under every valuation that makes its assumptions true, its conclusion is true. A formula
that a proof shows is forced everywhere. -/
theorem Tree.forces_of_check {tree : Tree Label Atom} {p : Proof Label Atom}
    (checked : tree.check = .ok p) :
    (∀ (K : Kripke.{u} Atom) (w : K.World),
        (∀ entry ∈ p.assumptions.entries, K.Forces w entry.2) → K.Forces w p.conclusion) ∧
      (∀ value : Atom → Bool,
        (∀ entry ∈ p.assumptions.entries, entry.2.eval value = true) →
          p.conclusion.eval value = true) ∧
      ∀ goal q, p.shows goal = .ok q → ∀ (K : Kripke.{u} Atom) (w : K.World), K.Forces w goal := by
  have yields := Tree.check_eq_ok_iff.mp checked
  have forced (K : Kripke.{u} Atom) (w : K.World)
      (assumed : ∀ entry ∈ p.assumptions.entries, K.Forces w entry.2) :
      K.Forces w p.conclusion := by
    refine yields.derivable.forces K fun f mem => ?_
    obtain ⟨entry, listed, rfl⟩ := List.mem_map.mp mem
    exact assumed entry listed
  refine ⟨forced, ?_, ?_⟩
  · intro value assumed
    have holds : (Kripke.ofValuation.{u} value).Forces .unit p.conclusion :=
      forced _ _ fun entry mem => Kripke.forces_ofValuation.mpr (assumed entry mem)
    exact Kripke.forces_ofValuation.mp holds
  · intro goal q shown K w
    refine (yields.derivable_of_shows shown).forces K fun f mem => ?_
    simp at mem

/-- A proof by cases in which one label stands for the disjunction and for both case hypotheses. -/
def swapCases : Tree ScopedLabel String :=
  let label := ScopedLabel.chosen (.number 1)
  .implIntro label <| .disjElim (.suppose (.disj (.var "p") (.var "q")) label)
    (.disjIntro (.suppose (.var "p") label) (.var "q") .right) label
    (.disjIntro (.suppose (.var "q") label) (.var "p") .left) label

theorem swapCases_forced :
    swapCases.check =
        .ok ⟨.impl (.disj (.var "p") (.var "q")) (.disj (.var "q") (.var "p")), .empty⟩ ∧
      ∀ (K : Kripke.{u} String) (w : K.World),
        K.Forces w (.impl (.disj (.var "p") (.var "q")) (.disj (.var "q") (.var "p"))) := by
  have checked : swapCases.check =
      .ok ⟨.impl (.disj (.var "p") (.var "q")) (.disj (.var "q") (.var "p")), .empty⟩ := rfl
  exact ⟨checked, (Tree.forces_of_check checked).2.2 _ _ rfl⟩

end Deduction
