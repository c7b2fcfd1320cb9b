import Deduction.Proofs.Tree

/-!
The open assumptions of a proof are the open leaves of its tree.

A leaf is open unless its label is discharged by a rule below which it stands. Rules discharge by
label and not by leaf: the same label may be discharged in one branch and open in another.
-/

namespace Deduction.Tree

variable {Label Atom : Type}

/-- A hypothesis of a tree. -/
structure Leaf (Label Atom : Type) where
  formula : Formula Atom
  label : Label
  /-- The labels that are discharged on the way from the leaf to the root. -/
  discharged : List Label
  deriving DecidableEq, Repr

def Leaf.IsOpen (leaf : Leaf Label Atom) : Prop := leaf.label ∉ leaf.discharged

instance [DecidableEq Label] (leaf : Leaf Label Atom) : Decidable leaf.IsOpen :=
  inferInstanceAs (Decidable (leaf.label ∉ leaf.discharged))

/-- A leaf in a premise in which a rule discharges a label. -/
def Leaf.under (label : Label) (leaf : Leaf Label Atom) : Leaf Label Atom :=
  { leaf with discharged := label :: leaf.discharged }

/-- The leaves from left to right. Implications discharge their label in the whole premise, and
proofs by cases discharge the label of each case in that case only. -/
def leaves : Tree Label Atom → List (Leaf Label Atom)
  | .suppose f label => [⟨f, label, []⟩]
  | .conjIntro left right => left.leaves ++ right.leaves
  | .conjElim premise _ => premise.leaves
  | .disjIntro premise _ _ => premise.leaves
  | .implElim premise implication => premise.leaves ++ implication.leaves
  | .implIntro label premise => premise.leaves.map (Leaf.under label)
  | .disjElim disjunction leftCase leftLabel rightCase rightLabel =>
      disjunction.leaves ++ leftCase.leaves.map (Leaf.under leftLabel)
        ++ rightCase.leaves.map (Leaf.under rightLabel)

/-- Some open leaf supposes the formula under the label. -/
def Open (tree : Tree Label Atom) (label : Label) (f : Formula Atom) : Prop :=
  ∃ leaf ∈ tree.leaves, leaf.IsOpen ∧ leaf.label = label ∧ leaf.formula = f

/-! ### Open leaves of a rule's premises -/

theorem open_under_iff {leaves : List (Leaf Label Atom)} {discharged label : Label}
    {f : Formula Atom} :
    (∃ leaf ∈ leaves.map (Leaf.under discharged),
        leaf.IsOpen ∧ leaf.label = label ∧ leaf.formula = f) ↔
      label ≠ discharged ∧
        ∃ leaf ∈ leaves, leaf.IsOpen ∧ leaf.label = label ∧ leaf.formula = f := by
  constructor
  · rintro ⟨_, mem, isOpen, rfl, rfl⟩
    obtain ⟨leaf, listed, rfl⟩ := List.mem_map.mp mem
    obtain ⟨apart, isOpen⟩ := not_or.mp (mt List.mem_cons.mpr isOpen)
    exact ⟨apart, leaf, listed, isOpen, rfl, rfl⟩
  · rintro ⟨apart, leaf, listed, isOpen, rfl, rfl⟩
    refine ⟨leaf.under discharged, List.mem_map_of_mem listed, ?_, rfl, rfl⟩
    exact mt List.mem_cons.mp (not_or.mpr ⟨apart, isOpen⟩)

variable {label : Label} {f : Formula Atom}

@[simp]
theorem open_suppose {g : Formula Atom} {bound : Label} :
    (Tree.suppose g bound).Open label f ↔ bound = label ∧ g = f := by
  simp [Open, leaves, Leaf.IsOpen]

@[simp]
theorem open_conjIntro {left right : Tree Label Atom} :
    (left.conjIntro right).Open label f ↔ left.Open label f ∨ right.Open label f := by
  simp [Open, leaves, or_and_right, exists_or]

@[simp]
theorem open_conjElim {premise : Tree Label Atom} {side : Side} :
    (premise.conjElim side).Open label f ↔ premise.Open label f := Iff.rfl

@[simp]
theorem open_disjIntro {premise : Tree Label Atom} {other : Formula Atom} {side : Side} :
    (premise.disjIntro other side).Open label f ↔ premise.Open label f := Iff.rfl

@[simp]
theorem open_implElim {premise implication : Tree Label Atom} :
    (premise.implElim implication).Open label f ↔
      premise.Open label f ∨ implication.Open label f := by
  simp [Open, leaves, or_and_right, exists_or]

@[simp]
theorem open_implIntro {discharged : Label} {premise : Tree Label Atom} :
    (Tree.implIntro discharged premise).Open label f ↔
      label ≠ discharged ∧ premise.Open label f :=
  open_under_iff

@[simp]
theorem open_disjElim {disjunction leftCase rightCase : Tree Label Atom}
    {leftLabel rightLabel : Label} :
    (disjunction.disjElim leftCase leftLabel rightCase rightLabel).Open label f ↔
      disjunction.Open label f ∨ (label ≠ leftLabel ∧ leftCase.Open label f) ∨
        (label ≠ rightLabel ∧ rightCase.Open label f) := by
  simp only [Open, leaves, List.mem_append, or_and_right, exists_or, or_assoc]
  rw [open_under_iff, open_under_iff]

/-! ### Open leaves and open assumptions -/

variable [BEq Label] [LawfulBEq Label] [BEq Atom] [LawfulBEq Atom]

theorem Yields.get?_eq_some_iff {tree : Tree Label Atom} {p : Proof Label Atom}
    (yields : tree.Yields p) : p.assumptions.get? label = some f ↔ tree.Open label f := by
  induction yields generalizing label f with
  | suppose => simp [Proof.suppose]
  | conjIntro _ _ applied ihl ihr =>
      obtain ⟨c, union, rfl⟩ := Proof.conjIntro_eq_ok_iff.mp applied
      rw [Assumptions.get?_merge union, ihl, ihr, open_conjIntro]
  | conjElim _ applied ih =>
      obtain ⟨lhs, rhs, -, rfl⟩ := Proof.conjElim_eq_ok_iff.mp applied
      exact ih
  | disjIntro _ ih =>
      rw [Proof.disjIntro_eq]
      exact ih
  | implElim _ _ applied ihp ihq =>
      obtain ⟨rhs, c, -, union, rfl⟩ := Proof.implElim_eq_ok_iff.mp applied
      rw [Assumptions.get?_merge union, ihp, ihq, open_implElim]
  | implIntro _ applied ih =>
      obtain ⟨g, -, rfl⟩ := Proof.implIntro_eq_ok_iff.mp applied
      rw [Assumptions.get?_erase_eq_some_iff, ih, open_implIntro]
  | disjElim _ _ _ applied ihr ihs iht =>
      obtain ⟨_, _, both, c, -, -, -, -, cases, union, rfl⟩ := Proof.disjElim_eq_ok_iff.mp applied
      rw [Assumptions.get?_merge union, Assumptions.get?_merge cases,
        Assumptions.get?_erase_eq_some_iff, Assumptions.get?_erase_eq_some_iff, ihr, ihs, iht,
        open_disjElim]

/-- A proof binds a label to a formula exactly when some open leaf of its tree supposes the formula
under that label. So open leaves with one label carry one formula, and a label that was discharged
is open again only where an open leaf supposes it. -/
theorem mem_entries_iff_open {tree : Tree Label Atom} {p : Proof Label Atom}
    (checked : tree.check = .ok p) :
    p.assumptions.labels.Nodup ∧
      (∀ label f, (label, f) ∈ p.assumptions.entries ↔ tree.Open label f) ∧
      (∀ label f g, tree.Open label f → tree.Open label g → f = g) ∧
      ∀ label, label ∈ p.assumptions.labels ↔ ∃ f, tree.Open label f := by
  have yields := check_eq_ok_iff.mp checked
  refine ⟨p.assumptions.labels_nodup, ?_, ?_, ?_⟩
  · intro label f
    rw [← Assumptions.get?_eq_some_iff, yields.get?_eq_some_iff]
  · intro label f g hf hg
    rw [← yields.get?_eq_some_iff] at hf hg
    exact Option.some.inj (hf.symm.trans hg)
  · intro label
    simp only [Assumptions.mem_labels, yields.get?_eq_some_iff]

/-- A label that is discharged for one formula and open for another. -/
def reusedLabel : Tree ScopedLabel String :=
  let label := ScopedLabel.chosen (.name "h")
  .conjIntro (.suppose (.var "q") label) (.implIntro label (.suppose (.var "p") label))

theorem reusedLabel_open :
    reusedLabel.check =
        .ok ⟨.conj (.var "q") (.impl (.var "p") (.var "p")),
          .single (.chosen (.name "h")) (.var "q")⟩ ∧
      ∀ f, reusedLabel.Open (.chosen (.name "h")) f ↔ f = .var "q" := by
  have checked : reusedLabel.check =
      .ok ⟨.conj (.var "q") (.impl (.var "p") (.var "p")),
        .single (.chosen (.name "h")) (.var "q")⟩ := rfl
  refine ⟨checked, fun f => ?_⟩
  rw [← (mem_entries_iff_open checked).2.1]
  simp [Assumptions.single]

end Deduction.Tree
