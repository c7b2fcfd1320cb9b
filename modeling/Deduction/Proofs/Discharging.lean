import Deduction.Proofs.OpenLabels
import Deduction.Workbench.Term

/-!
Hypotheses that are discharged one after another.

Any open labels can be discharged, in any order, as long as none of them comes twice. The formulas
that they name become the antecedents of the conclusion, the last one outermost. Nothing stays open
exactly if the labels are all those of the proof.
-/

namespace Deduction

/-- Implications nest to the right. -/
theorem Connective.join_impl {Atom : Type} (first : Formula Atom) (more : List (Formula Atom))
    (last : Formula Atom) :
    Connective.impl.join (first :: more ++ [last]) = .ok ((first :: more).foldr .impl last) := by
  induction more generalizing first with
  | nil => rfl
  | cons second more ih =>
      have inner := ih second
      cases more with
      | nil => rfl
      | cons third more => exact congrArg (Except.map (Formula.impl first)) inner

/-! ### Labels that are removed one after another -/

namespace Ordered

variable {Key Value : Type} [BEq Key] [EquivBEq Key]

theorem erase_eq_filter {entries : List (Key × Value)} (distinct : Distinct entries) (key : Key) :
    erase key entries = entries.filter fun entry => !key == entry.1 := by
  induction entries with
  | nil => rfl
  | cons head rest ih =>
      obtain ⟨k, v⟩ := head
      obtain ⟨apart, tail⟩ := List.pairwise_cons.mp distinct
      by_cases same : (k == key) = true
      · have others : ∀ entry ∈ rest, (!key == entry.1) = true := by
          intro entry mem
          rw [← BEq.congr_left same, apart entry mem, Bool.not_false]
        rw [erase, if_pos same, List.filter_cons_of_neg (by simp [BEq.symm same]),
          List.filter_eq_self.mpr others]
      · have differs : (!key == k) = true := by simpa [BEq.comm] using same
        rw [erase, if_neg same, List.filter_cons, if_pos differs, ih tail]

omit [EquivBEq Key] in
theorem map_fst_erase (key : Key) (entries : List (Key × Value)) :
    (erase key entries).map Prod.fst = (entries.map Prod.fst).erase key := by
  induction entries with
  | nil => rfl
  | cons head rest ih =>
      obtain ⟨k, v⟩ := head
      by_cases same : (k == key) = true
      · simp [erase, same, List.erase_cons]
      · simp [erase, same, ih]

theorem contains_map_fst (key : Key) (entries : List (Key × Value)) :
    (entries.map Prod.fst).contains key = has key entries := by
  induction entries with
  | nil => rfl
  | cons head rest ih => rw [List.map_cons, List.contains_cons, has_cons, ih, BEq.comm]

end Ordered

namespace Assumptions

variable {Label Atom : Type} [BEq Label]

def eraseAll (a : Assumptions Label Atom) (labels : List Label) : Assumptions Label Atom :=
  labels.foldl erase a

theorem eraseAll_cons (a : Assumptions Label Atom) (label : Label) (labels : List Label) :
    a.eraseAll (label :: labels) = (a.erase label).eraseAll labels := rfl

/-- Labels that are all open, and of which no two are equal. -/
def OpenEach (a : Assumptions Label Atom) (labels : List Label) : Prop :=
  labels.Pairwise (fun l l' => (l == l') = false) ∧ ∀ l ∈ labels, a.contains l = true

variable [EquivBEq Label] {a : Assumptions Label Atom} {label : Label} {labels : List Label}

theorem contains_erase_iff {other : Label} :
    (a.erase label).contains other = true ↔
      (label == other) = false ∧ a.contains other = true := by
  by_cases same : (label == other) = true
  · simp [contains, same]
  · simp [contains, same]

theorem openEach_cons_iff :
    a.OpenEach (label :: labels) ↔ a.contains label = true ∧ (a.erase label).OpenEach labels := by
  simp only [OpenEach, List.pairwise_cons, List.forall_mem_cons, contains_erase_iff]
  constructor
  · rintro ⟨⟨apart, distinct⟩, isOpen, others⟩
    exact ⟨isOpen, distinct, fun l mem => ⟨apart l mem, others l mem⟩⟩
  · rintro ⟨isOpen, distinct, others⟩
    exact ⟨⟨fun l mem => (others l mem).1, distinct⟩, isOpen, fun l mem => (others l mem).2⟩

theorem get?_eraseAll (l : Label) :
    (a.eraseAll labels).get? l = if labels.any (· == l) then none else a.get? l := by
  induction labels generalizing a with
  | nil => rfl
  | cons label labels ih =>
      rw [eraseAll_cons, ih, get?_erase, List.any_cons]
      by_cases same : (label == l) = true
      · simp [same]
      · simp [same]

theorem entries_eraseAll :
    (a.eraseAll labels).entries = a.entries.filter fun entry => !labels.any (· == entry.1) := by
  induction labels generalizing a with
  | nil => simp [eraseAll]
  | cons label labels ih =>
      have first : (a.erase label).entries = _ := Ordered.erase_eq_filter a.distinct label
      rw [eraseAll_cons, ih, first, List.filter_filter]
      refine List.filter_congr fun entry _ => ?_
      rw [List.any_cons, Bool.not_or, Bool.and_comm]

omit [EquivBEq Label] in
theorem labels_erase (a : Assumptions Label Atom) (label : Label) :
    (a.erase label).labels = a.labels.erase label :=
  Ordered.map_fst_erase label a.entries

theorem contains_labels : a.labels.contains label = a.contains label :=
  Ordered.contains_map_fst label a.entries

/-- All labels are removed exactly if the list names each of them. -/
theorem size_eraseAll_eq_zero_iff (each : a.OpenEach labels) :
    (a.eraseAll labels).size = 0 ↔ labels.isPerm a.labels = true := by
  induction labels generalizing a with
  | nil => simp [eraseAll, size, List.isPerm, Assumptions.labels]
  | cons label labels ih =>
      obtain ⟨isOpen, others⟩ := openEach_cons_iff.mp each
      rw [eraseAll_cons, ih others, labels_erase, List.isPerm, contains_labels, isOpen,
        Bool.true_and]

theorem map_get?_erase_eq_iff {formulas : List (Formula Atom)} :
    labels.map (a.erase label).get? = formulas.map some ↔
      (∀ l ∈ labels, (label == l) = false) ∧ labels.map a.get? = formulas.map some := by
  induction labels generalizing formulas with
  | nil => simp
  | cons l labels ih =>
      cases formulas with
      | nil => simp
      | cons f formulas =>
          simp only [List.map_cons, List.cons.injEq, ih, get?_erase, List.forall_mem_cons]
          by_cases same : (label == l) = true
          · simp [same]
          · simp [same, and_left_comm]

omit [EquivBEq Label] in
theorem exists_formulas_iff :
    (∃ formulas : List (Formula Atom), labels.map a.get? = formulas.map some) ↔
      ∀ l ∈ labels, a.contains l = true := by
  induction labels with
  | nil => simp
  | cons l labels ih =>
      rw [List.forall_mem_cons, ← ih, contains, Option.isSome_iff_exists]
      constructor
      · rintro ⟨_ | ⟨f, formulas⟩, named⟩
        · cases named
        · obtain ⟨found, others⟩ := List.cons.inj named
          exact ⟨⟨f, found⟩, formulas, others⟩
      · rintro ⟨⟨f, found⟩, formulas, others⟩
        exact ⟨f :: formulas, by rw [List.map_cons, List.map_cons, found, others]⟩

end Assumptions

/-! ### Discharging -/

/-- Steps that are taken one after another fail at the first one that fails. -/
theorem foldlM_eq_error_iff {State Item Error : Type} {step : State → Item → Except Error State}
    {items : List Item} {s : State} {e : Error} :
    items.foldlM step s = .error e ↔ ∃ before item after t, items = before ++ item :: after ∧
      before.foldlM step s = .ok t ∧ step t item = .error e := by
  induction items generalizing s with
  | nil => simp [pure, Except.pure]
  | cons first items ih =>
      rw [List.foldlM_cons, bind_eq_error_iff]
      constructor
      · rintro (failed | ⟨t, taken, failed⟩)
        · exact ⟨[], first, items, s, rfl, rfl, failed⟩
        · obtain ⟨before, item, after, u, rfl, done, failed⟩ := ih.mp failed
          refine ⟨first :: before, item, after, u, rfl, ?_, failed⟩
          rw [List.foldlM_cons, taken]
          exact done
      · rintro ⟨_ | ⟨_, before⟩, item, after, u, split, done, failed⟩
        · obtain ⟨rfl, rfl⟩ := List.cons.inj split
          cases done
          exact .inl failed
        · obtain ⟨rfl, rfl⟩ := List.cons.inj split
          rw [List.foldlM_cons, bind_eq_ok_iff] at done
          obtain ⟨t, taken, done⟩ := done
          exact .inr ⟨t, taken, ih.mpr ⟨before, item, after, u, rfl, done, failed⟩⟩

namespace Proof

variable {Label Atom : Type} [BEq Label]

/-- Discharge one label after another. -/
def implIntroAll (p : Proof Label Atom) (labels : List Label) : Result Label Atom :=
  labels.foldlM (fun q label => q.implIntro label) p

variable [EquivBEq Label] {p q : Proof Label Atom} {labels : List Label}

theorem implIntroAll_eq_ok_iff :
    p.implIntroAll labels = .ok q ↔
      ∃ formulas : List (Formula Atom), labels.map p.assumptions.get? = formulas.map some ∧
        labels.Pairwise (fun l l' => (l == l') = false) ∧
        q = ⟨formulas.foldl (fun c f => .impl f c) p.conclusion,
          p.assumptions.eraseAll labels⟩ := by
  induction labels generalizing p with
  | nil =>
      rw [implIntroAll, List.foldlM_nil, pure_eq_ok_iff]
      simp [Assumptions.eraseAll]
  | cons label labels ih =>
      rw [implIntroAll, List.foldlM_cons, bind_eq_ok_iff]
      simp only [implIntro_eq_ok_iff]
      constructor
      · rintro ⟨_, ⟨f, found, rfl⟩, rest⟩
        obtain ⟨formulas, named, distinct, rfl⟩ := ih.mp rest
        obtain ⟨apart, named⟩ := Assumptions.map_get?_erase_eq_iff.mp named
        refine ⟨f :: formulas, ?_, List.pairwise_cons.mpr ⟨apart, distinct⟩, rfl⟩
        rw [List.map_cons, List.map_cons, found, named]
      · rintro ⟨_ | ⟨f, formulas⟩, named, distinct, rfl⟩
        · cases named
        · obtain ⟨found, named⟩ := List.cons.inj named
          obtain ⟨apart, distinct⟩ := List.pairwise_cons.mp distinct
          have others := Assumptions.map_get?_erase_eq_iff.mpr ⟨apart, named⟩
          exact ⟨_, ⟨f, found, rfl⟩, ih.mpr ⟨formulas, others, distinct, rfl⟩⟩

theorem exists_implIntroAll_iff :
    (∃ q, p.implIntroAll labels = .ok q) ↔ p.assumptions.OpenEach labels := by
  simp only [implIntroAll_eq_ok_iff]
  rw [Assumptions.OpenEach, ← Assumptions.exists_formulas_iff]
  constructor
  · rintro ⟨_, formulas, named, distinct, -⟩
    exact ⟨distinct, formulas, named⟩
  · rintro ⟨distinct, formulas, named⟩
    exact ⟨_, formulas, named, distinct, rfl⟩

/-- The first label that is not open, or that came before, is the one that is not found. -/
theorem implIntroAll_eq_error_iff {e : RuleError Label Atom} :
    p.implIntroAll labels = .error e ↔ ∃ before label after, labels = before ++ label :: after ∧
      p.assumptions.OpenEach before ∧
      (p.assumptions.contains label = false ∨ ∃ l ∈ before, (l == label) = true) ∧
      .labelNotFound label = e := by
  have missing {before : List Label} {label : Label} :
      (p.assumptions.eraseAll before).get? label = none ↔
        (p.assumptions.contains label = false ∨ ∃ l ∈ before, (l == label) = true) := by
    rw [Assumptions.get?_eraseAll, Assumptions.contains, ← List.any_eq_true]
    by_cases repeated : before.any (· == label) = true
    · simp [repeated]
    · simp [repeated]
  rw [implIntroAll, foldlM_eq_error_iff]
  simp only [implIntro_eq_error_iff]
  constructor
  · rintro ⟨before, label, after, q, split, done, absent, rfl⟩
    have isOpen := exists_implIntroAll_iff.mp ⟨q, done⟩
    obtain ⟨_, _, _, rfl⟩ := implIntroAll_eq_ok_iff.mp done
    exact ⟨before, label, after, split, isOpen, missing.mp absent, rfl⟩
  · rintro ⟨before, label, after, split, isOpen, absent, rfl⟩
    obtain ⟨q, done⟩ := exists_implIntroAll_iff.mpr isOpen
    have result := implIntroAll_eq_ok_iff.mp done
    obtain ⟨_, _, _, rfl⟩ := result
    exact ⟨before, label, after, _, split, done, missing.mpr absent, rfl⟩

variable [BEq Atom] [ReflBEq Atom]

omit [EquivBEq Label] in
theorem shows_conclusion_iff : p.shows p.conclusion = .ok p ↔ p.assumptions.size = 0 := by
  by_cases closed : p.assumptions.size = 0
  · simp [shows, isClosed, closed]
  · simp [shows, isClosed, closed]

end Proof

/-- A proof of `d` with three hypotheses. -/
def hypothetical : Proof Label String :=
  ⟨.var "d", .ofList [(.number 1, .var "a"), (.name "1", .var "b"), (.name "h", .var "c")]⟩

end Deduction
