import Deduction.Proofs.Merging
import Deduction.Proofs.Sorting
import Deduction.Proofs.Translation

/-!
The rules of inference and equality of proofs.

Equal proofs may list their assumptions in different orders. A union goes through the labels of its
second set and stops at the first clash, so that the order decides which clash is reported. It does
not decide whether there is one, nor what the union binds. Hence rules do not tell equal premises
apart, but for the details of their errors.
-/

namespace Deduction

/-! ### Formulas -/

namespace Formula

variable {Atom : Type} [BEq Atom] [ReflBEq Atom]

/-- Formulas with the same connective and equal parts. -/
inductive SameParts : Formula Atom → Formula Atom → Prop
  | var {a b} : (a == b) = true → SameParts (.var a) (.var b)
  | conj {f g f' g'} : (f == f') = true → (g == g') = true → SameParts (.conj f g) (.conj f' g')
  | disj {f g f' g'} : (f == f') = true → (g == g') = true → SameParts (.disj f g) (.disj f' g')
  | impl {f g f' g'} : (f == f') = true → (g == g') = true → SameParts (.impl f g) (.impl f' g')

theorem beq_iff_sameParts {f g : Formula Atom} : (f == g) = true ↔ SameParts f g := by
  constructor
  · intro same
    rw [beq_eq_agree] at same
    cases f <;> cases g <;>
      simp only [agree, Bool.and_eq_true, ← beq_eq_agree, Bool.false_eq_true] at same
    · exact .var same
    · exact .conj same.1 same.2
    · exact .disj same.1 same.2
    · exact .impl same.1 same.2
  · intro parts
    rw [beq_eq_agree]
    cases parts with
    | var same => exact same
    | conj left right | disj left right | impl left right =>
        simp [agree, ← beq_eq_agree, left, right]

end Formula

/-! ### Assumption sets -/

namespace Assumptions

variable {Label Atom : Type} [BEq Label] [EquivBEq Label] [BEq Atom] [EquivBEq Atom]
  {a b c d : Assumptions Label Atom} {label : Label} {f : Formula Atom}

theorem binds_of_beq (same : (a == b) = true) (binds : a.Binds label f) : b.Binds label f := by
  obtain ⟨g, found, eq⟩ := binds
  obtain ⟨spelling, spelled, mem⟩ := Ordered.exists_mem_of_find? found
  obtain ⟨g', found', eq'⟩ := (beq_iff.mp same).2 _ mem
  refine ⟨g', ?_, BEq.trans (BEq.symm eq') eq⟩
  rw [← found']
  exact (Ordered.find?_congr spelled b.entries).symm

omit [EquivBEq Label] in
theorem Binds.iff (bound : a.Binds label f) {g : Formula Atom} :
    a.Binds label g ↔ (f == g) = true := by
  refine ⟨bound.beq, fun eq => ?_⟩
  obtain ⟨k, found, same⟩ := bound
  exact ⟨k, found, BEq.trans same eq⟩

theorem binds_congr {other : Label} (same : (label == other) = true) :
    a.Binds label f ↔ a.Binds other f := by
  have read : a.get? label = a.get? other := Ordered.find?_congr same a.entries
  rw [Binds, Binds, read]

omit [EquivBEq Label] in
theorem binds_single_iff {bound : Label} {g : Formula Atom} :
    (single bound g).Binds label f ↔ (bound == label) = true ∧ (g == f) = true := by
  simp [Binds]

omit [BEq Atom] [EquivBEq Atom] in
theorem unbound_of_get?_eq_none (absent : a.get? label = none) :
    ∀ entry ∈ a.entries, (label == entry.1) = false := by
  intro entry mem
  by_contra bound
  rw [Bool.not_eq_false] at bound
  have found := Ordered.find?_of_mem a.distinct mem
  rw [← Ordered.find?_congr bound] at found
  cases absent.symm.trans found

/-- The first of two equal sets binds what the second one binds: otherwise the labels of the first
and one more were labels of the second, which has no more than the first. -/
theorem exists_get?_of_beq (same : (a == b) = true) (bound : b.get? label = some f) :
    ∃ g, a.get? label = some g := by
  obtain ⟨size, all⟩ := beq_iff.mp same
  cases absent : a.get? label with
  | some g => exact ⟨g, rfl⟩
  | none =>
      have distinct : Ordered.Distinct ((label, f) :: a.entries) :=
        List.pairwise_cons.mpr ⟨unbound_of_get?_eq_none absent, a.distinct⟩
      have more := Ordered.length_le_of_find? distinct b.distinct fun entry mem => by
        rcases List.mem_cons.mp mem with rfl | mem
        · exact ⟨f, bound⟩
        · obtain ⟨g, found, -⟩ := all entry mem
          exact ⟨g, found⟩
      rw [List.length_cons, ← Assumptions.size, ← Assumptions.size, size] at more
      exact absurd more (Nat.not_succ_le_self _)

theorem beq_iff_binds :
    (a == b) = true ↔ ∀ label f, a.Binds label f ↔ b.Binds label f := by
  refine ⟨fun same label f => ⟨binds_of_beq same, ?_⟩, beq_of_binds⟩
  intro binds
  obtain ⟨_, found, -⟩ := id binds
  obtain ⟨g, found'⟩ := exists_get?_of_beq same found
  have eq := (binds_of_beq same ⟨g, found', BEq.rfl⟩).beq binds
  exact ⟨g, found', eq⟩

instance : EquivBEq (Assumptions Label Atom) where
  rfl := beq_iff_binds.mpr fun _ _ => Iff.rfl
  symm same := beq_iff_binds.mpr fun l f => (beq_iff_binds.mp same l f).symm
  trans first second := beq_iff_binds.mpr fun l f =>
    (beq_iff_binds.mp first l f).trans (beq_iff_binds.mp second l f)

/-- Equal sets name equal formulas by a label, or both name none. -/
theorem rel_get?_of_beq (same : (a == b) = true) (label : Label) :
    Option.Rel (fun f g => (f == g) = true) (a.get? label) (b.get? label) := by
  cases left : a.get? label with
  | none =>
      cases right : b.get? label with
      | none => exact .none
      | some g =>
          obtain ⟨f, found⟩ := exists_get?_of_beq same right
          cases left.symm.trans found
  | some f =>
      obtain ⟨g, found, eq⟩ := binds_of_beq same ⟨f, left, BEq.rfl⟩
      rw [found]
      exact .some (BEq.symm eq)

omit [EquivBEq Atom] in
theorem binds_erase_iff [ReflBEq Atom] {erased : Label} :
    (a.erase erased).Binds label f ↔ (erased == label) = false ∧ a.Binds label f := by
  by_cases same : (erased == label) = true
  · simp [Binds, same]
  · simp [Binds, same]

theorem beq_erase_of_beq (same : (a == b) = true) (label : Label) :
    (a.erase label == b.erase label) = true := by
  rw [beq_iff_binds] at same ⊢
  intro l f
  rw [binds_erase_iff, binds_erase_iff, same l f]

theorem alike_merge_of_beq (left : (a == c) = true) (right : (b == d) = true) :
    Alike (a.merge b) (c.merge d) := by
  have pair (a b : Assumptions Label Atom) : IsUnion [a, b] (a.merge b) :=
    (IsUnion.single a).merge (.single b)
  refine (pair a b).alike_of_binds (pair c d) fun label f => ?_
  simp [beq_iff_binds.mp left label f, beq_iff_binds.mp right label f]

end Assumptions

/-! ### Rules -/

namespace Proof

variable {Label Atom : Type} [BEq Label] [BEq Atom]

theorem beq_iff [ReflBEq Atom] {p q : Proof Label Atom} :
    (p == q) = true ↔
      (p.conclusion == q.conclusion) = true ∧ (p.assumptions == q.assumptions) = true :=
  Bool.and_eq_true_iff

instance [EquivBEq Label] [EquivBEq Atom] : EquivBEq (Proof Label Atom) where
  rfl := beq_iff.mpr ⟨BEq.rfl, BEq.rfl⟩
  symm same := beq_iff.mpr ⟨BEq.symm (beq_iff.mp same).1, BEq.symm (beq_iff.mp same).2⟩
  trans first second := beq_iff.mpr ⟨BEq.trans (beq_iff.mp first).1 (beq_iff.mp second).1,
    BEq.trans (beq_iff.mp first).2 (beq_iff.mp second).2⟩

/-- Attempts with one outcome: both give a result and the results are equal, or both fail with
errors of one kind. -/
abbrev SameOutcome {A : Type} [BEq A] :
    Except (RuleError Label Atom) A → Except (RuleError Label Atom) A → Prop :=
  Follows True (fun e e' => e'.kind = e.kind) fun a b => (a == b) = true

variable [EquivBEq Label] [EquivBEq Atom] {p q p' q' : Proof Label Atom}

theorem sameOutcome_mergeAssumptions {a b c d : Assumptions Label Atom} (left : (a == c) = true)
    (right : (b == d) = true) : SameOutcome (mergeAssumptions a b) (mergeAssumptions c d) := by
  have alike := Assumptions.alike_merge_of_beq left right
  unfold mergeAssumptions
  generalize a.merge b = x at alike ⊢
  generalize c.merge d = y at alike ⊢
  cases alike with
  | given same => exact .ok same
  | failed => exact .error rfl

theorem sameOutcome_assumed (same : (p == q) = true) (label : Label) :
    SameOutcome (p.assumed label) (q.assumed label) := by
  have found := Assumptions.rel_get?_of_beq (beq_iff.mp same).2 label
  unfold assumed
  generalize p.assumptions.get? label = x at found ⊢
  generalize q.assumptions.get? label = y at found ⊢
  cases found with
  | none => exact .error rfl
  | some eq => exact .ok eq

theorem sameOutcome_conjIntro (left : (p == p') = true) (right : (q == q') = true) :
    SameOutcome (p.conjIntro q) (p'.conjIntro q') := by
  rw [beq_iff] at left right
  refine (sameOutcome_mergeAssumptions left.2 right.2).bind fun c c' same => .ok ?_
  exact beq_iff.mpr ⟨Formula.beq_iff_sameParts.mpr (.conj left.1 right.1), same⟩

omit [EquivBEq Label] in
theorem sameOutcome_conjElim (same : (p == q) = true) (side : Side) :
    SameOutcome (p.conjElim side) (q.conjElim side) := by
  obtain ⟨f, a⟩ := p
  obtain ⟨g, b⟩ := q
  obtain ⟨conclusion, assumptions⟩ := beq_iff.mp same
  cases Formula.beq_iff_sameParts.mp conclusion with
  | conj left right =>
      cases side with
      | left => exact .ok (beq_iff.mpr ⟨left, assumptions⟩)
      | right => exact .ok (beq_iff.mpr ⟨right, assumptions⟩)
  | var _ | disj _ _ | impl _ _ => exact .error rfl

omit [EquivBEq Label] in
theorem beq_disjIntro (same : (p == q) = true) (other : Formula Atom) (side : Side) :
    (p.disjIntro other side == q.disjIntro other side) = true := by
  rw [beq_iff] at same
  cases side with
  | left => exact beq_iff.mpr ⟨Formula.beq_iff_sameParts.mpr (.disj same.1 BEq.rfl), same.2⟩
  | right => exact beq_iff.mpr ⟨Formula.beq_iff_sameParts.mpr (.disj BEq.rfl same.1), same.2⟩

theorem sameOutcome_implElim (left : (p == p') = true) (right : (q == q') = true) :
    SameOutcome (p.implElim q) (p'.implElim q') := by
  obtain ⟨f, b⟩ := q
  obtain ⟨g, d⟩ := q'
  rw [beq_iff] at left right
  cases Formula.beq_iff_sameParts.mp right.1 with
  | impl lhs rhs =>
      unfold implElim
      dsimp only
      rw [BEq.congr_left lhs, BEq.congr_right left.1]
      split
      · refine (sameOutcome_mergeAssumptions left.2 right.2).bind fun c c' same => .ok ?_
        exact beq_iff.mpr ⟨rhs, same⟩
      · exact .error rfl
  | var _ | conj _ _ | disj _ _ => exact .error rfl

theorem sameOutcome_implIntro (same : (p == q) = true) (label : Label) :
    SameOutcome (p.implIntro label) (q.implIntro label) := by
  refine (sameOutcome_assumed same label).bind fun f g eq => .ok ?_
  rw [beq_iff] at same
  exact beq_iff.mpr ⟨Formula.beq_iff_sameParts.mpr (.impl eq same.1),
    Assumptions.beq_erase_of_beq same.2 label⟩

theorem sameOutcome_disjElim {r r' s s' t t' : Proof Label Atom} (whole : (r == r') = true)
    (left : (s == s') = true) (l₁ : Label) (right : (t == t') = true) (l₂ : Label) :
    SameOutcome (r.disjElim s l₁ t l₂) (r'.disjElim s' l₁ t' l₂) := by
  obtain ⟨f, a⟩ := r
  obtain ⟨g, b⟩ := r'
  rw [beq_iff] at whole
  cases Formula.beq_iff_sameParts.mp whole.1 with
  | disj lhs rhs =>
      refine (sameOutcome_assumed left l₁).bind fun f f' inLeft => ?_
      refine (sameOutcome_assumed right l₂).bind fun g g' inRight => ?_
      rw [beq_iff] at left right
      -- Every comparison comes out the same, so both calls stop at the same one or at none.
      rw [BEq.congr_left inLeft, BEq.congr_right lhs, BEq.congr_left inRight, BEq.congr_right rhs,
        BEq.congr_left left.1, BEq.congr_right right.1]
      split_ifs
      · exact .error rfl
      · exact .error rfl
      · exact .error rfl
      · refine (sameOutcome_mergeAssumptions (Assumptions.beq_erase_of_beq left.2 l₁)
          (Assumptions.beq_erase_of_beq right.2 l₂)).bind fun c c' inner => ?_
        refine (sameOutcome_mergeAssumptions whole.2 inner).bind fun d d' outer => .ok ?_
        exact beq_iff.mpr ⟨left.1, outer⟩
  | var _ | conj _ _ | impl _ _ => exact .error rfl

omit [EquivBEq Label] in
theorem isClosed_eq_of_beq (same : (p == q) = true) : p.isClosed = q.isClosed := by
  rw [isClosed, isClosed, (Assumptions.beq_iff.mp (beq_iff.mp same).2).1]

omit [EquivBEq Label] in
theorem sameOutcome_shows (same : (p == q) = true) (expected : Formula Atom) :
    SameOutcome (p.shows expected) (q.shows expected) := by
  unfold shows
  rw [isClosed_eq_of_beq same, BEq.congr_left (beq_iff.mp same).1]
  split_ifs
  · exact .error rfl
  · exact .ok same
  · exact .error rfl

end Proof

/-- A rule that is applied to equal premises has one outcome. -/
theorem Inference.sameOutcome_apply {Label Atom : Type} [BEq Label] [EquivBEq Label] [BEq Atom]
    [EquivBEq Atom] {i : Inference (Proof Label Atom × Proof Label Atom) Label Atom}
    (equal : ∀ pair ∈ i.refs, (pair.1 == pair.2) = true) :
    Proof.SameOutcome (i.map Prod.fst id id).apply (i.map Prod.snd id id).apply := by
  cases i with
  | suppose f label =>
      exact .ok BEq.rfl
  | conjIntro p q =>
      exact Proof.sameOutcome_conjIntro (equal p (by simp [refs])) (equal q (by simp [refs]))
  | conjElim p side => exact Proof.sameOutcome_conjElim (equal p (by simp [refs])) side
  | implElim p q =>
      exact Proof.sameOutcome_implElim (equal p (by simp [refs])) (equal q (by simp [refs]))
  | implIntro label q => exact Proof.sameOutcome_implIntro (equal q (by simp [refs])) label
  | disjIntro p other side => exact .ok (Proof.beq_disjIntro (equal p (by simp [refs])) other side)
  | disjElim r s l₁ t l₂ =>
      exact Proof.sameOutcome_disjElim (equal r (by simp [refs])) (equal s (by simp [refs])) l₁
        (equal t (by simp [refs])) l₂

/-! ### Open assumptions in messages -/

theorem Assumptions.perm_labels_of_beq {Label Atom : Type} [BEq Label] [LawfulBEq Label] [BEq Atom]
    [EquivBEq Atom] {a b : Assumptions Label Atom} (same : (a == b) = true) :
    a.labels.Perm b.labels := by
  refine (List.perm_ext_iff_of_nodup a.labels_nodup b.labels_nodup).mpr fun label => ?_
  rw [mem_labels, mem_labels]
  have found := rel_get?_of_beq same label
  generalize a.get? label = x at found ⊢
  generalize b.get? label = y at found ⊢
  cases found with
  | none => rfl
  | some _ => simp

theorem RuleError.message_openAssumptions_of_perm {Label Atom : Type} [LabelText Label]
    [AtomText Atom] {labels others : List Label} (same : labels.Perm others) :
    (openAssumptions labels : RuleError Label Atom).message =
      (openAssumptions others : RuleError Label Atom).message := by
  have texts := sortTexts_eq_of_perm (same.map LabelText.describe)
  exact congrArg
    (fun texts => "Proof still depends on open assumptions: " ++ ", ".intercalate texts) texts

theorem Proof.shows_eq_openAssumptions_iff {Label Atom : Type} [BEq Label] [BEq Atom] [ReflBEq Atom]
    {p : Proof Label Atom} {expected : Formula Atom} {labels : List Label} :
    p.shows expected = .error (.openAssumptions labels) ↔
      p.isClosed = false ∧ p.assumptions.labels = labels := by
  unfold shows
  split_ifs <;> simp_all

/-- A proof of `c` from three assumptions, in either order. -/
def threefold (backwards : Bool) : Proof ScopedLabel String :=
  let entries := [(.chosen (.number 1), .var "p"), (.chosen (.name "1"), .var "q"),
    (.fresh 1, .var "r")]
  ⟨.var "c", .ofList (if backwards then entries.reverse else entries)⟩

/-- Disagrees with `threefold` about the first label and about the last. -/
def disagreeing : Proof ScopedLabel String :=
  ⟨.var "d", .ofList [(.chosen (.number 1), .var "s"), (.fresh 1, .var "s")]⟩

end Deduction
