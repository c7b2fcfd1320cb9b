import Mathlib.Data.Set.Finite.Basic
import Mathlib.Data.Set.Finite.List
import Deduction.Proofs.Calculus
import Deduction.Proofs.Tree

/-!
Every derivable formula has a tree that proves it from exactly the given assumptions.

Rules discharge only labels that are open, so nothing can be discharged in vain. A hypothesis that a
proof does not use is therefore carried along: it is joined to the conclusion and dropped again,
which leaves its label open. Labels to discharge are chosen fresh, so that no two premises clash.
-/

namespace Deduction

namespace Tree

variable {Label Atom : Type}

/-- All formulas that the tree brings in are among some, and all its labels are. -/
def Within (formula : Formula Atom → Prop) (allowed : Label → Prop) : Tree Label Atom → Prop
  | .suppose f label => formula f ∧ allowed label
  | .conjIntro left right => left.Within formula allowed ∧ right.Within formula allowed
  | .conjElim premise _ => premise.Within formula allowed
  | .disjIntro premise other _ => premise.Within formula allowed ∧ formula other
  | .implElim premise implication =>
      premise.Within formula allowed ∧ implication.Within formula allowed
  | .implIntro label premise => allowed label ∧ premise.Within formula allowed
  | .disjElim disjunction leftCase leftLabel rightCase rightLabel =>
      disjunction.Within formula allowed ∧ leftCase.Within formula allowed ∧ allowed leftLabel ∧
        rightCase.Within formula allowed ∧ allowed rightLabel

variable [BEq Label] [BEq Atom] [LawfulBEq Atom]

/-- The tree proves a formula from exactly the given assumptions. -/
def Proves (tree : Tree Label Atom) (f : Formula Atom) (a : Assumptions Label Atom) : Prop :=
  ∃ p, tree.Yields p ∧ p.conclusion = f ∧ p.assumptions.Equiv a

namespace Proves

variable {tree left right : Tree Label Atom} {f g h : Formula Atom} {a : Assumptions Label Atom}

theorem conjElim (proves : tree.Proves (.conj f g) a) (side : Side) :
    (tree.conjElim side).Proves (side.pick f g) a := by
  obtain ⟨p, yields, conclusion, same⟩ := proves
  exact ⟨_, .conjElim yields (Proof.conjElim_eq_ok_iff.mpr ⟨f, g, conclusion, rfl⟩), rfl, same⟩

theorem disjIntro (proves : tree.Proves f a) (other : Formula Atom) (side : Side) :
    (tree.disjIntro other side).Proves (side.join f other) a := by
  obtain ⟨p, yields, rfl, same⟩ := proves
  refine ⟨_, .disjIntro yields, ?_, ?_⟩
  · rw [Proof.disjIntro_eq]
  · rw [Proof.disjIntro_eq]
    exact same

variable [LawfulBEq Label]

theorem conjIntro (first : left.Proves f a) (second : right.Proves g a) :
    (left.conjIntro right).Proves (.conj f g) a := by
  obtain ⟨p, hp, rfl, sameLeft⟩ := first
  obtain ⟨q, hq, rfl, sameRight⟩ := second
  obtain ⟨c, union, same⟩ := Assumptions.exists_merge_of_equiv sameLeft sameRight
  exact ⟨_, .conjIntro hp hq (Proof.conjIntro_eq_ok_iff.mpr ⟨c, union, rfl⟩), rfl, same⟩

theorem implElim (premise : left.Proves f a) (implication : right.Proves (.impl f g) a) :
    (left.implElim right).Proves g a := by
  obtain ⟨p, hp, rfl, sameLeft⟩ := premise
  obtain ⟨q, hq, conclusion, sameRight⟩ := implication
  obtain ⟨c, union, same⟩ := Assumptions.exists_merge_of_equiv sameLeft sameRight
  have applied := Proof.implElim_eq_ok_iff.mpr ⟨g, c, conclusion, union, rfl⟩
  exact ⟨_, .implElim hp hq applied, rfl, same⟩

theorem implIntro {label : Label} (fresh : a.get? label = none)
    (premise : tree.Proves g (a.insert label f)) :
    (Tree.implIntro label tree).Proves (.impl f g) a := by
  obtain ⟨q, yields, rfl, same⟩ := premise
  have bound : q.assumptions.get? label = some f := by simp [same label]
  refine ⟨_, .implIntro yields (Proof.implIntro_eq_ok_iff.mpr ⟨f, bound, rfl⟩), rfl, ?_⟩
  exact Assumptions.equiv_erase_of_equiv_insert fresh same

theorem disjElim {label : Label} (fresh : a.get? label = none)
    (disjunction : tree.Proves (.disj f g) a) (leftCase : left.Proves h (a.insert label f))
    (rightCase : right.Proves h (a.insert label g)) :
    (tree.disjElim left label right label).Proves h a := by
  obtain ⟨r, hr, conclusion, same⟩ := disjunction
  obtain ⟨s, hs, rfl, sameLeft⟩ := leftCase
  obtain ⟨t, ht, conclusions, sameRight⟩ := rightCase
  have boundLeft : s.assumptions.get? label = some f := by simp [sameLeft label]
  have boundRight : t.assumptions.get? label = some g := by simp [sameRight label]
  obtain ⟨both, cases, sameCases⟩ := Assumptions.exists_merge_of_equiv
    (Assumptions.equiv_erase_of_equiv_insert fresh sameLeft)
    (Assumptions.equiv_erase_of_equiv_insert fresh sameRight)
  obtain ⟨c, union, sameUnion⟩ := Assumptions.exists_merge_of_equiv same sameCases
  refine ⟨⟨s.conclusion, c⟩, .disjElim hr hs ht (Proof.disjElim_eq_ok_iff.mpr ?_), rfl, sameUnion⟩
  exact ⟨f, g, both, c, conclusion, boundLeft, boundRight, conclusions.symm, cases, union, rfl⟩

end Proves

/-! ### Carrying hypotheses along -/

/-- Open further hypotheses without a change of the conclusion. -/
def carry (tree : Tree Label Atom) (entries : List (Label × Formula Atom)) : Tree Label Atom :=
  entries.foldl
    (fun tree entry => .conjElim (.conjIntro tree (.suppose entry.2 entry.1)) .left) tree

omit [BEq Label] [BEq Atom] [LawfulBEq Atom] in
theorem within_carry {formula : Formula Atom → Prop} {allowed : Label → Prop}
    {tree : Tree Label Atom} {entries : List (Label × Formula Atom)}
    (within : tree.Within formula allowed)
    (listed : ∀ entry ∈ entries, formula entry.2 ∧ allowed entry.1) :
    (tree.carry entries).Within formula allowed := by
  induction entries generalizing tree with
  | nil => exact within
  | cons entry rest ih =>
      have head := listed entry List.mem_cons_self
      have tail := fun e mem => listed e (List.mem_cons_of_mem entry mem)
      exact ih ⟨within, head⟩ tail

variable [LawfulBEq Label]

theorem exists_yields_carry {a : Assumptions Label Atom} {tree : Tree Label Atom}
    {p : Proof Label Atom} {entries : List (Label × Formula Atom)} (yields : tree.Yields p)
    (inside : ∀ label f, p.assumptions.get? label = some f → a.get? label = some f)
    (listed : ∀ label f, (label, f) ∈ entries → a.get? label = some f) :
    ∃ q, (tree.carry entries).Yields q ∧ q.conclusion = p.conclusion ∧
      ∀ label f, q.assumptions.get? label = some f ↔
        p.assumptions.get? label = some f ∨ (label, f) ∈ entries := by
  induction entries generalizing tree p with
  | nil => exact ⟨p, yields, rfl, by simp⟩
  | cons entry rest ih =>
      obtain ⟨bound, g⟩ := entry
      have head := listed bound g List.mem_cons_self
      -- everything is bound as in `a`, so the new hypothesis cannot clash with an open one
      have agree : p.assumptions.Agree (.single bound g) := by
        intro label f f' hf hf'
        obtain ⟨rfl, rfl⟩ := Assumptions.get?_single_eq_some_iff.mp hf'
        exact Option.some.inj ((inside _ _ hf).symm.trans head)
      obtain ⟨c, union⟩ := Assumptions.exists_merge_iff.mpr agree
      have binds : ∀ label f, c.get? label = some f ↔
          p.assumptions.get? label = some f ∨ (label = bound ∧ f = g) := by
        intro label f
        rw [Assumptions.get?_merge union, Assumptions.get?_single_eq_some_iff]
      have joined : (Tree.conjElim (.conjIntro tree (.suppose g bound)) .left).Yields
          ⟨p.conclusion, c⟩ := by
        have paired : p.conjIntro (.suppose g bound) = .ok ⟨.conj p.conclusion g, c⟩ :=
          Proof.conjIntro_eq_ok_iff.mpr ⟨c, union, rfl⟩
        refine .conjElim (.conjIntro yields .suppose paired) ?_
        exact Proof.conjElim_eq_ok_iff.mpr ⟨p.conclusion, g, rfl, rfl⟩
      have stillInside : ∀ label f, c.get? label = some f → a.get? label = some f := by
        intro label f found
        rcases (binds label f).mp found with old | ⟨rfl, rfl⟩
        · exact inside label f old
        · exact head
      obtain ⟨q, carried, conclusion, opened⟩ :=
        ih joined stillInside fun label f mem => listed label f (List.mem_cons_of_mem _ mem)
      refine ⟨q, carried, conclusion, fun label f => ?_⟩
      rw [opened, binds, List.mem_cons, Prod.mk.injEq, or_assoc]

theorem proves_carry {a : Assumptions Label Atom} {label : Label} {f : Formula Atom}
    (bound : a.get? label = some f) : ((Tree.suppose f label).carry a.entries).Proves f a := by
  have inside : ∀ l g, (Proof.suppose f label).assumptions.get? l = some g → a.get? l = some g := by
    intro l g found
    obtain ⟨rfl, rfl⟩ := Assumptions.get?_single_eq_some_iff.mp found
    exact bound
  obtain ⟨q, yields, conclusion, opened⟩ :=
    exists_yields_carry .suppose inside fun l g mem => Assumptions.get?_eq_some_iff.mpr mem
  refine ⟨q, yields, conclusion, fun l => Option.ext fun g => ?_⟩
  rw [opened, ← Assumptions.get?_eq_some_iff]
  exact or_iff_right_of_imp (inside l g)

end Tree

/-! ### From the calculus to trees -/

variable {Label Atom Other : Type} [BEq Label] [LawfulBEq Label] [BEq Other] [LawfulBEq Other]

omit [BEq Other] [LawfulBEq Other] in
theorem Assumptions.exists_fresh {allowed : Set Label} (supply : allowed.Infinite)
    (a : Assumptions Label Other) : ∃ label ∈ allowed, a.get? label = none := by
  obtain ⟨label, mem, absent⟩ := supply.exists_notMem_finite (List.finite_toSet a.labels)
  refine ⟨label, mem, Option.eq_none_iff_forall_ne_some.mpr fun f found => ?_⟩
  exact absent (Assumptions.mem_labels.mpr ⟨f, found⟩)

/-- Every formula of a context is assumed, with its atoms renamed. -/
def Covers (rename : Atom → Other) (a : Assumptions Label Other) (Γ : List (Formula Atom)) : Prop :=
  ∀ f ∈ Γ, ∃ label, a.get? label = some (f.map rename)

omit [BEq Other] [LawfulBEq Other] in
theorem Covers.insert {rename : Atom → Other} {a : Assumptions Label Other}
    {Γ : List (Formula Atom)} (covers : Covers rename a Γ) {label : Label}
    (fresh : a.get? label = none) (f : Formula Atom) :
    Covers rename (a.insert label (f.map rename)) (f :: Γ) := by
  intro g mem
  rcases List.mem_cons.mp mem with rfl | mem
  · exact ⟨label, by simp⟩
  · obtain ⟨l, bound⟩ := covers g mem
    have apart : label ≠ l := by
      rintro rfl
      simp [fresh] at bound
    exact ⟨l, by simpa [apart] using bound⟩

omit [BEq Other] [LawfulBEq Other] in
theorem Assumptions.forall_insert {a : Assumptions Label Other}
    {holds : Label → Formula Other → Prop} (all : ∀ label f, a.get? label = some f → holds label f)
    {label : Label} {f : Formula Other} (new : holds label f) :
    ∀ l g, (a.insert label f).get? l = some g → holds l g := by
  intro l g found
  by_cases same : label = l
  · subst same
    obtain rfl : f = g := by simpa using found
    exact new
  · exact all l g (by simpa [same] using found)

/-- The atoms may be renamed on the way, and then only renamed atoms occur in the tree. -/
theorem Derivable.exists_tree {rename : Atom → Other} (formula : Formula Other → Prop)
    {allowed : Set Label} (supply : allowed.Infinite)
    (image : ∀ f : Formula Atom, formula (f.map rename)) {Γ : List (Formula Atom)}
    {f : Formula Atom} (derivable : Derivable Γ f) {a : Assumptions Label Other}
    (covers : Covers rename a Γ)
    (within : ∀ label g, a.get? label = some g → formula g ∧ label ∈ allowed) :
    ∃ tree : Tree Label Other,
      tree.Proves (f.map rename) a ∧ tree.Within formula (· ∈ allowed) := by
  induction derivable generalizing a with
  | hypothesis mem =>
      obtain ⟨label, bound⟩ := covers _ mem
      refine ⟨_, Tree.proves_carry bound, Tree.within_carry (within label _ bound) ?_⟩
      intro entry mem
      exact within _ _ (Assumptions.get?_eq_some_iff.mpr mem)
  | conjIntro _ _ ihl ihr =>
      obtain ⟨_, first, hl⟩ := ihl covers within
      obtain ⟨_, second, hr⟩ := ihr covers within
      exact ⟨_, first.conjIntro second, hl, hr⟩
  | conjLeft _ ih =>
      obtain ⟨_, both, h⟩ := ih covers within
      exact ⟨_, both.conjElim .left, h⟩
  | conjRight _ ih =>
      obtain ⟨_, both, h⟩ := ih covers within
      exact ⟨_, both.conjElim .right, h⟩
  | @disjLeft Γ f g _ ih =>
      obtain ⟨_, one, h⟩ := ih covers within
      exact ⟨_, one.disjIntro (g.map rename) .left, h, image g⟩
  | @disjRight Γ f g _ ih =>
      obtain ⟨_, one, h⟩ := ih covers within
      exact ⟨_, one.disjIntro (f.map rename) .right, h, image f⟩
  | @disjElim Γ f g h _ _ _ ih ihl ihr =>
      obtain ⟨label, mem, fresh⟩ := a.exists_fresh supply
      obtain ⟨_, disjunction, hr⟩ := ih covers within
      obtain ⟨_, leftCase, hs⟩ :=
        ihl (covers.insert fresh f) (Assumptions.forall_insert within ⟨image f, mem⟩)
      obtain ⟨_, rightCase, ht⟩ :=
        ihr (covers.insert fresh g) (Assumptions.forall_insert within ⟨image g, mem⟩)
      exact ⟨_, .disjElim fresh disjunction leftCase rightCase, hr, hs, mem, ht, mem⟩
  | @implIntro Γ f g _ ih =>
      -- the label is open in the premise even if its tree had no use for it
      obtain ⟨label, mem, fresh⟩ := a.exists_fresh supply
      obtain ⟨_, premise, h⟩ :=
        ih (covers.insert fresh f) (Assumptions.forall_insert within ⟨image f, mem⟩)
      exact ⟨_, .implIntro fresh premise, mem, h⟩
  | implElim _ _ ih ihf =>
      obtain ⟨_, premise, h⟩ := ih covers within
      obtain ⟨_, implication, hf⟩ := ihf covers within
      exact ⟨_, premise.implElim implication, h, hf⟩

end Deduction
