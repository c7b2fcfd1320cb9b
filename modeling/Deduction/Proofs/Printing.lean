import Deduction.Proof.Sequent
import Deduction.Proofs.Detours
import Deduction.Proofs.Discharging
import Deduction.Proofs.Sorting
import Deduction.Proofs.Tree

/-!
Equal proofs as they are printed.

Equality does not see in which order assumptions came, and printing puts them in the order of the
texts of their labels. A number and a name can have one text, and then the assumptions stay as they
came. So equal proofs are printed alike, unless labels with one text name formulas with different
texts. In that case some other way to build the proof is printed differently.
-/

namespace Deduction

/-! ### Texts with separators -/

/-- Two neighbours among texts that are joined stand in one place, whatever they are. -/
theorem Text.exists_intercalate_pair (separator : Text) (before after : List Text) :
    ∃ left right : Text, ∀ a b, separator.intercalate (before ++ a :: b :: after) =
      left ++ (a ++ separator ++ b) ++ right := by
  induction before with
  | nil =>
      cases after with
      | nil => exact ⟨"", "", fun a b => by simp [← points_inj, intercalate]⟩
      | cons c after =>
          refine ⟨"", separator ++ separator.intercalate (c :: after), fun a b => ?_⟩
          simp [← points_inj, intercalate]
  | cons first before ih =>
      obtain ⟨left, right, joined⟩ := ih
      refine ⟨first ++ separator ++ left, right, fun a b => ?_⟩
      rw [List.cons_append, intercalate_cons_of_ne_nil (by simp), joined]
      simp only [append_assoc]

/-- Equal texts are equal after the last place where a mark stands. -/
theorem eq_of_append_cons_eq {α : Type} {mark : α} {left left' right right' : List α}
    (last : mark ∉ right) (last' : mark ∉ right')
    (eq : left ++ mark :: right = left' ++ mark :: right') : right = right' := by
  rcases List.append_eq_append_iff.mp eq with ⟨between, -, eq⟩ | ⟨between, -, eq⟩
  · cases between with
    | nil => exact (List.cons.inj eq).2
    | cons _ between => exact absurd (by simp [(List.cons.inj eq).2]) last
  · cases between with
    | nil => exact (List.cons.inj eq).2.symm
    | cons _ between => exact absurd (by simp [(List.cons.inj eq).2]) last'

namespace Formula

theorem colon_notMem_parenthesize {needed : Bool} {text : String} (free : ':' ∉ text.toList) :
    ':' ∉ (parenthesize needed text).toList := by
  cases needed <;> simp [parenthesize, free]

theorem colon_notMem_select (ascii : Bool) :
    ':' ∉ (Symbols.select ascii).conj.toList ∧ ':' ∉ (Symbols.select ascii).disj.toList ∧
      ':' ∉ (Symbols.select ascii).impl.toList := by
  cases ascii <;> decide

theorem colon_notMem_renderAt (ascii : Bool) {f : Formula String}
    (named : ∀ name ∈ f.occurrences, ':' ∉ name.toList) (strength : Nat) :
    ':' ∉ (f.renderAt (.select ascii) strength).toList := by
  obtain ⟨conj, disj, impl⟩ := colon_notMem_select ascii
  induction f generalizing strength with
  | var name => exact named name (by simp [occurrences])
  | conj lhs rhs ihl ihr | disj lhs rhs ihl ihr | impl lhs rhs ihl ihr =>
      have left := ihl fun name mem => named name (List.mem_append_left _ mem)
      have right := ihr fun name mem => named name (List.mem_append_right _ mem)
      refine colon_notMem_parenthesize ?_
      simp [between, left, right, conj, disj, impl]

end Formula

/-! ### Sequents -/

namespace Sequent

variable {symbols : Symbols} {s t : Sequent String}

/-- The texts of the hypotheses, under those of their labels. -/
def told (symbols : Symbols) (s : Sequent String) : List (Text × String) :=
  s.hypotheses.map fun h => (h.1, h.2.render symbols)

def line (h : Text × String) : Text := h.1 ++ ": " ++ h.2

theorem render_eq_of_told (symbols : Symbols) (s : Sequent String) :
    s.render symbols =
      let hypotheses := Text.intercalate ", " ((s.told symbols).map line)
      let conclusion : Text := symbols.turnstile ++ " " ++ s.conclusion.render symbols
      if hypotheses.isEmpty then conclusion else hypotheses ++ " " ++ conclusion := by
  rw [told, List.map_map]
  rfl

/-- The printed line shows in which order two formulas stand under one label. -/
theorem render_ne_of_swapped {label : Text} {a b : String} {before after : List (Text × String)}
    (forth : s.told symbols = before ++ (label, a) :: (label, b) :: after)
    (back : t.told symbols = before ++ (label, b) :: (label, a) :: after)
    (conclusion : s.conclusion = t.conclusion) (inA : ':' ∉ a.toList) (inB : ':' ∉ b.toList)
    (differ : a ≠ b) : s.render symbols ≠ t.render symbols := by
  obtain ⟨left, right, joined⟩ :=
    Text.exists_intercalate_pair ", " (before.map line) (after.map line)
  have nonempty (x y : Text) : (left ++ (x ++ ", " ++ y) ++ right).isEmpty = false := by
    rw [Bool.eq_false_iff, ne_eq, Text.isEmpty_iff, ← Text.points_eq_nil_iff]
    simp
  intro eq
  simp only [render_eq_of_told, forth, back, List.map_append, List.map_cons, joined, nonempty,
    conclusion, Bool.false_eq_true, if_false, Text.append_left_inj, Text.append_right_inj] at eq
  have points : (line (label, a) ++ ", " ++ label).points ++ .char ':' :: .char ' ' ::
        (Text.plain b).points =
      (line (label, b) ++ ", " ++ label).points ++ .char ':' :: .char ' ' ::
        (Text.plain a).points := by
    simpa [line] using congrArg Text.points eq
  have ends := eq_of_append_cons_eq (by simp [inB]) (by simp [inA]) points
  have same : Text.plain b = .plain a := Text.points_inj.mp (List.cons.inj ends).2
  exact differ (Text.plain.inj same).symm

end Sequent

namespace Assumptions

variable {Label Atom : Type} [BEq Label] [LawfulBEq Label]

theorem perm_entries_of_beq [BEq Atom] [LawfulBEq Atom] {a b : Assumptions Label Atom}
    (same : (a == b) = true) : a.entries.Perm b.entries := by
  have nodup (c : Assumptions Label Atom) : c.entries.Nodup := c.labels_nodup.of_map
  refine (List.perm_ext_iff_of_nodup (nodup a) (nodup b)).mpr ?_
  rintro ⟨label, f⟩
  have binds := beq_iff_binds.mp same label f
  simpa [Binds, get?_eq_some_iff] using binds

/-- Labels with one text name formulas with one text. -/
def Unambiguous [LabelText Label] (symbols : Symbols) (a : Assumptions Label String) : Prop :=
  ∀ l l' f g, a.get? l = some f → a.get? l' = some g →
    LabelText.plain l = LabelText.plain l' → f.render symbols = g.render symbols

end Assumptions

namespace Proof

variable {Label : Type} [BEq Label] [LabelText Label] {symbols : Symbols}

theorem told_sequent (symbols : Symbols) (p : Proof Label String) :
    p.sequent.told symbols =
      (p.assumptions.entries.map fun entry =>
        (LabelText.plain entry.1, entry.2.render symbols)).mergeSort (inOrder Prod.fst) := by
  have kept := List.map_mergeSort (r := inOrder Prod.fst) (s := inOrder Prod.fst)
    (f := fun h : Text × Formula String => (h.1, h.2.render symbols))
    (l := p.assumptions.entries.map fun entry => (LabelText.plain entry.1, entry.2))
    fun _ _ _ _ => rfl
  rw [List.map_map] at kept
  exact kept

/-- Of two assumptions whose labels have one text, the one that came first is printed first. -/
theorem exists_told_of_tied (symbols : Symbols) {p q : Proof Label String} {l l' : Label}
    {f g : Formula String} {rest : List (Label × Formula String)}
    (tied : LabelText.plain l = LabelText.plain l')
    (forth : p.assumptions.entries = (l, f) :: (l', g) :: rest)
    (back : q.assumptions.entries = (l', g) :: (l, f) :: rest) :
    ∃ before after,
      p.sequent.told symbols = before ++ (LabelText.plain l, f.render symbols) ::
        (LabelText.plain l, g.render symbols) :: after ∧
      q.sequent.told symbols = before ++ (LabelText.plain l, g.render symbols) ::
        (LabelText.plain l, f.render symbols) :: after := by
  rw [told_sequent, told_sequent, forth, back]
  simp only [List.map_cons, ← tied]
  apply exists_mergeSort_of_tied
  rfl

variable [LawfulBEq Label] {p q : Proof Label String}

theorem tooDeep_sequent_of_beq [Limits] (same : (q == p) = true) :
    q.sequent.tooDeep = p.sequent.tooDeep := by
  obtain ⟨conclusion, assumptions⟩ := beq_iff.mp same
  have perm := Assumptions.perm_entries_of_beq assumptions
  have sorted (r : Proof Label String) : r.sequent.hypotheses.Perm _ :=
    List.mergeSort_perm _ (inOrder Prod.fst)
  have hypotheses := (sorted q).trans ((perm.map _).trans (sorted p).symm)
  rw [Sequent.tooDeep, Sequent.tooDeep, hypotheses.any_eq]
  exact congrArg _ (congrArg (Formula.exceeds · Limits.rendering) (eq_of_beq conclusion))

theorem render_sequent_of_beq (unambiguous : p.assumptions.Unambiguous symbols)
    (same : (q == p) = true) : q.sequent.render symbols = p.sequent.render symbols := by
  obtain ⟨conclusion, assumptions⟩ := beq_iff.mp same
  have perm := (Assumptions.perm_entries_of_beq assumptions).symm
  have told : p.sequent.told symbols = q.sequent.told symbols := by
    rw [told_sequent, told_sequent]
    refine mergeSort_eq_of_perm (perm.map _) ?_
    simp only [List.mem_map]
    rintro _ ⟨⟨l, f⟩, mem, rfl⟩ _ ⟨⟨l', g⟩, mem', rfl⟩ tied
    rw [← Assumptions.get?_eq_some_iff] at mem mem'
    exact Prod.ext tied (unambiguous l l' f g mem mem' tied)
  rw [Sequent.render_eq_of_told, Sequent.render_eq_of_told, told]
  rw [show q.sequent.conclusion = p.sequent.conclusion from eq_of_beq conclusion]

end Proof

/-! ### Assumptions in another order -/

namespace Tree

variable {Label Atom : Type} [BEq Label] [EquivBEq Label] [BEq Atom] [EquivBEq Atom]
  {tree : Tree Label Atom} {p : Proof Label Atom} {label other : Label} {f g : Formula Atom}

/-- A hypothesis that is discharged and supposed again comes to stand first. -/
theorem exists_check_first (checked : tree.check = .ok p) (bound : p.assumptions.Binds label f) :
    ∃ (tree' : Tree Label Atom) (q : Proof Label Atom), tree'.check = .ok q ∧ (q == p) = true ∧
      q.conclusion = p.conclusion ∧
      q.assumptions.entries = (label, f) :: (p.assumptions.erase label).entries := by
  obtain ⟨q, taken, conclusion, entries⟩ := Proof.exists_detour_suppose bound
  refine ⟨.implElim (.suppose f label) (.implIntro label tree), q, ?_,
    Proof.beq_of_detour_suppose bound taken, conclusion, entries⟩
  simpa [Tree.check, checked, Proof.detour] using taken

theorem exists_check_pair (checked : tree.check = .ok p) (first : p.assumptions.Binds label f)
    (second : p.assumptions.Binds other g) (apart : (other == label) = false) :
    ∃ (tree' : Tree Label Atom) (q : Proof Label Atom), tree'.check = .ok q ∧ (q == p) = true ∧
      q.conclusion = p.conclusion ∧ q.assumptions.entries =
        (label, f) :: (other, g) :: (p.assumptions.eraseAll [other, label]).entries := by
  obtain ⟨_, r, checked, inner, conclusion, entries⟩ := exists_check_first checked second
  have kept := (Assumptions.beq_iff_binds.mp (Proof.beq_iff.mp inner).2 label f).mpr first
  obtain ⟨tree', q, checked, outer, conclusion', entries'⟩ := exists_check_first checked kept
  refine ⟨tree', q, checked, BEq.trans outer inner, conclusion'.trans conclusion, ?_⟩
  have rest := calc (r.assumptions.erase label).entries
    _ = Ordered.erase label ((other, g) :: (p.assumptions.erase other).entries) :=
        congrArg (Ordered.erase label) entries
    _ = (other, g) :: (p.assumptions.eraseAll [other, label]).entries := by
        rw [Ordered.erase, apart]
        rfl
  rw [entries', rest]

end Tree

/-- Formulas under labels with one text come in either order. -/
theorem Tree.exists_checks_printed_apart {Label : Type} [BEq Label] [LawfulBEq Label]
    [LabelText Label] {tree : Tree Label String} {p : Proof Label String}
    (checked : tree.check = .ok p) {ascii : Bool} {l l' : Label} {f g : Formula String}
    (bound : p.assumptions.get? l = some f) (bound' : p.assumptions.get? l' = some g)
    (tied : LabelText.plain l = LabelText.plain l')
    (differ : f.render (.select ascii) ≠ g.render (.select ascii))
    (inF : ':' ∉ (f.render (.select ascii)).toList)
    (inG : ':' ∉ (g.render (.select ascii)).toList) :
    ∃ (left : Tree Label String) (right : Tree Label String) (q r : Proof Label String),
      left.check = .ok q ∧ right.check = .ok r ∧ (q == p) = true ∧ (r == p) = true ∧
        q.sequent.render (.select ascii) ≠ r.sequent.render (.select ascii) := by
  have apart : l ≠ l' := by
    rintro rfl
    obtain rfl := Option.some.inj (bound.symm.trans bound')
    exact differ rfl
  have first : p.assumptions.Binds l f := ⟨f, bound, BEq.rfl⟩
  have second : p.assumptions.Binds l' g := ⟨g, bound', BEq.rfl⟩
  obtain ⟨left, q, isLeft, sameLeft, conclusion, entries⟩ :=
    exists_check_pair checked first second (beq_eq_false_iff_ne.mpr apart.symm)
  obtain ⟨right, r, isRight, sameRight, conclusion', entries'⟩ :=
    exists_check_pair checked second first (beq_eq_false_iff_ne.mpr apart)
  have rest : (p.assumptions.eraseAll [l, l']).entries =
      (p.assumptions.eraseAll [l', l]).entries := by
    simp [Assumptions.entries_eraseAll, Bool.and_comm]
  obtain ⟨before, after, forth, back⟩ :=
    Proof.exists_told_of_tied (.select ascii) tied entries (entries'.trans (by rw [rest]))
  refine ⟨left, right, q, r, isLeft, isRight, sameLeft, sameRight, ?_⟩
  exact Sequent.render_ne_of_swapped forth back (conclusion.trans conclusion'.symm) inF inG differ

/-- Equal proofs are printed alike if no two of their labels have one text and yet name formulas
with different texts. Otherwise there is an equal proof that is printed in another way, as long as
no variable has a colon in its name. In any case either both are too deep to be printed or neither
is. -/
theorem Tree.printed_alike_unless_ambiguous [Limits] (tree : Tree Label String)
    (p : Proof Label String) (ascii : Bool) (checked : tree.check = .ok p) :
    (∀ q, (p == q) = true → p.sequent.tooDeep = q.sequent.tooDeep) ∧
    (p.assumptions.Unambiguous (.select ascii) → ∀ q, (p == q) = true →
      p.sequent.render (.select ascii) = q.sequent.render (.select ascii)) ∧
    ((∀ f ∈ p.assumptions.formulas, ∀ name ∈ f.occurrences, ':' ∉ name.toList) →
      ¬p.assumptions.Unambiguous (.select ascii) →
      ∃ (tree' : Tree Label String) (q : Proof Label String), tree'.check = .ok q ∧
        (p == q) = true ∧
        p.sequent.render (.select ascii) ≠ q.sequent.render (.select ascii)) := by
  refine ⟨fun q same => Proof.tooDeep_sequent_of_beq same, fun unambiguous q same => ?_,
    fun named ambiguous => ?_⟩
  · exact (Proof.render_sequent_of_beq unambiguous (BEq.symm same)).symm
  · simp only [Assumptions.Unambiguous, not_forall] at ambiguous
    obtain ⟨l, l', f, g, bound, bound', tied, differ⟩ := ambiguous
    have free {l : Label} {f : Formula String} (bound : p.assumptions.get? l = some f) :
        ':' ∉ (f.render (.select ascii)).toList :=
      f.colon_notMem_renderAt ascii (named f (Assumptions.mem_formulas.mpr ⟨l, bound⟩)) 0
    obtain ⟨left, right, q, r, isLeft, isRight, sameLeft, sameRight, apart⟩ :=
      exists_checks_printed_apart checked bound bound' tied differ (free bound) (free bound')
    -- Of two different lines at most one is that of the proof itself.
    by_cases eq : p.sequent.render (.select ascii) = q.sequent.render (.select ascii)
    · exact ⟨right, r, isRight, BEq.symm sameRight, eq ▸ apart⟩
    · exact ⟨left, q, isLeft, BEq.symm sameLeft, eq⟩

/-- Two assumptions under labels with one text, and the conjunction of what they say. -/
def likeNamed (second : String) : Tree Label String :=
  .conjIntro (.suppose (.var "p") (.number 1)) (.suppose (.var second) (.name "1"))

/-- The same conjunction from its parts, which come out of the reverse conjunction. -/
def likeNamedTurned (second : String) : Tree Label String :=
  let reverse := .conjIntro (.suppose (.var second) (.name "1")) (.suppose (.var "p") (.number 1))
  .conjIntro (.conjElim reverse .right) (.conjElim reverse .left)

theorem likeNamed_printed_apart :
    ∃ p q, (likeNamed "q").check = .ok p ∧ (likeNamedTurned "q").check = .ok q ∧
      (p == q) = true ∧
      p.sequent.render (.select false) = "1: p, 1: q ⊢ p ∧ q" ∧
      q.sequent.render (.select false) = "1: q, 1: p ⊢ p ∧ q" ∧
      p.sequent.render (.select true) = "1: p, 1: q |- p & q" ∧
      q.sequent.render (.select true) = "1: q, 1: p |- p & q" := by
  refine ⟨_, _, rfl, rfl, by decide, ?_⟩
  simp only [Sequent.render_eq_of_told, Proof.told_sequent]
  -- The texts of the labels are in order as they come.
  repeat rw [List.mergeSort_of_pairwise (by decide)]
  decide

/-- One formula may stand under both labels. -/
theorem likeNamed_decided :
    (∃ p q, (likeNamed "p").check = .ok p ∧ (likeNamedTurned "p").check = .ok q ∧
      p.assumptions.labels ≠ q.assumptions.labels ∧
      ∀ ascii, p.sequent.render (.select ascii) = q.sequent.render (.select ascii)) ∧
    ∃ p, (likeNamed "q").check = .ok p ∧ ∀ ascii,
      ∃ (tree : Tree Label String) (q : Proof Label String), tree.check = .ok q ∧
        (p == q) = true ∧
        p.sequent.render (.select ascii) ≠ q.sequent.render (.select ascii) := by
  let _ : Limits := .uniform 0
  refine ⟨⟨_, _, rfl, rfl, by decide, fun ascii => ?_⟩, _, rfl, fun ascii => ?_⟩
  · refine (Tree.printed_alike_unless_ambiguous (likeNamed "p") _ ascii rfl).2.1 ?_ _ (by decide)
    intro l l' f g bound bound' _
    have only : ∀ f ∈ [Formula.var "p", .var "p"], f = .var "p" := by simp
    rw [only f (Assumptions.mem_formulas.mpr ⟨l, bound⟩),
      only g (Assumptions.mem_formulas.mpr ⟨l', bound'⟩)]
  · refine (Tree.printed_alike_unless_ambiguous (likeNamed "q") _ ascii rfl).2.2 (by decide) ?_
    intro unambiguous
    have texts : "p" = "q" := unambiguous (.number 1) (.name "1") (.var "p") (.var "q") rfl rfl rfl
    exact absurd texts (by decide)

end Deduction
