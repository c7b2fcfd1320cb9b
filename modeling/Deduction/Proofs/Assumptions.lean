import Mathlib.Data.List.Nodup
import Deduction.Assumptions

/-!
What labels name in a union of assumption sets.

Two sets can be merged exactly when no label names different formulas in them, and the union binds
what either of them binds.
-/

namespace Deduction

namespace Ordered

variable {Key Value : Type} [BEq Key] [LawfulBEq Key]

theorem find?_eq_some_iff {entries : List (Key × Value)} (distinct : Distinct entries) {key : Key}
    {value : Value} : find? key entries = some value ↔ (key, value) ∈ entries := by
  induction entries with
  | nil => simp [find?]
  | cons head rest ih =>
      obtain ⟨k, v⟩ := head
      obtain ⟨apart, tail⟩ := List.pairwise_cons.mp distinct
      by_cases same : k = key
      · subst same
        have absent : (k, value) ∉ rest := fun mem => by simpa using apart _ mem
        simp [find?, absent, eq_comm]
      · simp [find?, same, Ne.symm same, ih tail]

omit [LawfulBEq Key] in
theorem exists_mem_of_find? {key : Key} {value : Value} {entries : List (Key × Value)}
    (found : find? key entries = some value) :
    ∃ spelling, (spelling == key) = true ∧ (spelling, value) ∈ entries := by
  induction entries with
  | nil => cases found
  | cons head rest ih =>
      obtain ⟨k, v⟩ := head
      rw [find?] at found
      split at found
      · rename_i same
        cases found
        exact ⟨k, same, List.mem_cons_self⟩
      · obtain ⟨spelling, same, mem⟩ := ih found
        exact ⟨spelling, same, List.mem_cons_of_mem _ mem⟩

omit [LawfulBEq Key] in
theorem value_of_mem_put {key : Key} {value : Value} {entries : List (Key × Value)}
    {entry : Key × Value} (mem : entry ∈ put key value entries) :
    entry.2 = value ∨ entry ∈ entries := by
  induction entries with
  | nil => exact .inl (congrArg Prod.snd (List.mem_singleton.mp mem))
  | cons head rest ih =>
      obtain ⟨k, v⟩ := head
      rw [put] at mem
      split at mem
      · rcases List.mem_cons.mp mem with rfl | mem
        · exact .inl rfl
        · exact .inr (List.mem_cons_of_mem _ mem)
      · rcases List.mem_cons.mp mem with rfl | mem
        · exact .inr List.mem_cons_self
        · exact (ih mem).imp_right (List.mem_cons_of_mem _)

omit [LawfulBEq Key] in
theorem put_eq_append {key : Key} {value : Value} {entries : List (Key × Value)}
    (unbound : ∀ entry ∈ entries, (entry.1 == key) = false) :
    put key value entries = entries ++ [(key, value)] := by
  induction entries with
  | nil => rfl
  | cons head rest ih =>
      obtain ⟨apart, later⟩ := List.forall_mem_cons.mp unbound
      simp [put, apart, ih later]

theorem Distinct.nodup_keys {entries : List (Key × Value)} (distinct : Distinct entries) :
    (entries.map Prod.fst).Nodup := by
  refine List.pairwise_map.mpr (List.Pairwise.imp ?_ distinct)
  intro a b apart
  simpa using apart

end Ordered

namespace Assumptions

variable {Label Atom : Type} [BEq Label]

/-- The formulas that labels name. -/
def formulas (a : Assumptions Label Atom) : List (Formula Atom) := a.entries.map Prod.snd

/-- No label names different formulas in the two sets. -/
def Agree (a b : Assumptions Label Atom) : Prop :=
  ∀ label f g, a.get? label = some f → b.get? label = some g → f = g

/-- The same bindings, in whatever order. -/
def Equiv (a b : Assumptions Label Atom) : Prop := ∀ label, a.get? label = b.get? label

theorem eq_empty_of_size {a : Assumptions Label Atom} (h : a.size = 0) : a = empty := by
  obtain ⟨entries, distinct⟩ := a
  obtain rfl := List.length_eq_zero_iff.mp h
  rfl

theorem mem_formulas_of_erase {a : Assumptions Label Atom} {label : Label} {f : Formula Atom}
    (mem : f ∈ (a.erase label).formulas) : f ∈ a.formulas :=
  ((Ordered.erase_sublist label a.entries).map Prod.snd).subset mem

theorem mem_formulas_of_insert {a : Assumptions Label Atom} {label : Label} {f g : Formula Atom}
    (mem : f ∈ (a.insert label g).formulas) : f = g ∨ f ∈ a.formulas := by
  obtain ⟨entry, bound, rfl⟩ := List.mem_map.mp mem
  exact (Ordered.value_of_mem_put bound).imp_right (List.mem_map_of_mem ·)

/-! ### Unions, binding by binding -/

theorem insertAll_cons_eq_ok_iff [BEq Atom] [ReflBEq Atom] {a c : Assumptions Label Atom}
    {label : Label} {f : Formula Atom} {rest : List (Label × Formula Atom)} :
    a.insertAll ((label, f) :: rest) = .ok c ↔
      (∀ g, a.get? label = some g → (g == f) = true) ∧
        (a.insert label f).insertAll rest = .ok c := by
  cases found : a.get? label with
  | none => simp [insertAll, found]
  | some g => by_cases same : (g == f) = true <;> simp [insertAll, found, same]

theorem insertAll_cons_eq_error_iff [BEq Atom] [ReflBEq Atom] {a : Assumptions Label Atom}
    {label : Label} {f : Formula Atom} {rest : List (Label × Formula Atom)}
    {clash : Clash Label Atom} :
    a.insertAll ((label, f) :: rest) = .error clash ↔
      (∃ g, a.get? label = some g ∧ (g == f) = false ∧ ⟨label, g, f⟩ = clash) ∨
      (∀ g, a.get? label = some g → (g == f) = true) ∧
        (a.insert label f).insertAll rest = .error clash := by
  cases found : a.get? label with
  | none => simp [insertAll, found]
  | some g => by_cases same : (g == f) = true <;> simp [insertAll, found, same]

theorem mem_formulas_of_insertAll [BEq Atom] [ReflBEq Atom] {a c : Assumptions Label Atom}
    {entries : List (Label × Formula Atom)} (inserted : a.insertAll entries = .ok c)
    {f : Formula Atom} (mem : f ∈ c.formulas) : f ∈ a.formulas ∨ f ∈ entries.map Prod.snd := by
  induction entries generalizing a with
  | nil =>
      cases inserted
      exact .inl mem
  | cons head rest ih =>
      obtain ⟨label, g⟩ := head
      obtain ⟨-, later⟩ := insertAll_cons_eq_ok_iff.mp inserted
      rw [List.map_cons, List.mem_cons]
      rcases ih later with before | after
      · exact (mem_formulas_of_insert before).symm.imp_right .inl
      · exact .inr (.inr after)

theorem mem_formulas_of_merge [BEq Atom] [ReflBEq Atom] {a b c : Assumptions Label Atom}
    (merged : a.merge b = .ok c) {f : Formula Atom} (mem : f ∈ c.formulas) :
    f ∈ a.formulas ∨ f ∈ b.formulas :=
  mem_formulas_of_insertAll merged mem

/-- Bindings of labels that differ from each other and from those of a set are added at its end. -/
theorem exists_insertAll_of_distinct [BEq Atom] [ReflBEq Atom] {a : Assumptions Label Atom}
    {entries : List (Label × Formula Atom)} (apart : Ordered.Distinct (a.entries ++ entries)) :
    ∃ c, a.insertAll entries = .ok c ∧ c.entries = a.entries ++ entries := by
  induction entries generalizing a with
  | nil => exact ⟨a, rfl, a.entries.append_nil.symm⟩
  | cons head rest ih =>
      obtain ⟨label, f⟩ := head
      have unbound : ∀ entry ∈ a.entries, (entry.1 == label) = false := fun entry mem =>
        (List.pairwise_append.mp apart).2.2 entry mem (label, f) List.mem_cons_self
      have added : (a.insert label f).entries = a.entries ++ [(label, f)] :=
        Ordered.put_eq_append unbound
      have later := ih (a := a.insert label f) (by simpa [added] using apart)
      have absent : a.get? label = none := Ordered.find?_eq_none unbound
      simpa [insertAll, absent, added] using later

/-- The clash that a union stops at: the first of the added labels that names another formula
already. -/
def FirstClash [BEq Atom] [ReflBEq Atom] (a : Assumptions Label Atom)
    (entries : List (Label × Formula Atom)) (clash : Clash Label Atom) : Prop :=
  ∃ before after, entries = before ++ (clash.label, clash.right) :: after ∧
    a.get? clash.label = some clash.left ∧ (clash.left == clash.right) = false ∧
    ∀ entry ∈ before, ∀ f, a.get? entry.1 = some f → (f == entry.2) = true

section

variable [EquivBEq Label] [BEq Atom] [ReflBEq Atom] {a c : Assumptions Label Atom}
  {entries : List (Label × Formula Atom)}

theorem get?_insertAll (distinct : Ordered.Distinct entries)
    (inserted : a.insertAll entries = .ok c) (l : Label) :
    c.get? l = (Ordered.find? l entries).or (a.get? l) := by
  induction entries generalizing a with
  | nil =>
      cases inserted
      rfl
  | cons head rest ih =>
      obtain ⟨label, f⟩ := head
      obtain ⟨-, later⟩ := insertAll_cons_eq_ok_iff.mp inserted
      rw [ih (List.pairwise_cons.mp distinct).2 later, get?_insert]
      by_cases same : (label == l) = true
      · simp [Ordered.find?, same, distinct.find?_of_beq_head same]
      · simp [Ordered.find?, same]

theorem firstClash_cons_iff {label : Label} {f : Formula Atom} {rest : List (Label × Formula Atom)}
    (distinct : Ordered.Distinct ((label, f) :: rest)) {clash : Clash Label Atom}
    (agree : ∀ g, a.get? label = some g → (g == f) = true) :
    a.FirstClash ((label, f) :: rest) clash ↔ (a.insert label f).FirstClash rest clash := by
  -- The labels that follow are other ones, so they name what they named before.
  have kept : ∀ entry ∈ rest, (a.insert label f).get? entry.1 = a.get? entry.1 := by
    intro entry mem
    rw [get?_insert, (List.pairwise_cons.mp distinct).1 entry mem]
    rfl
  constructor
  · rintro ⟨_ | ⟨head, before⟩, after, split, left, differ, earlier⟩
    · obtain ⟨⟨rfl, rfl⟩, rfl⟩ : (label = clash.label ∧ f = clash.right) ∧ rest = after := by
        simpa using split
      simp [agree _ left] at differ
    · obtain ⟨rfl, rfl⟩ :
          (label, f) = head ∧ rest = before ++ (clash.label, clash.right) :: after := by
        simpa using split
      refine ⟨before, after, rfl, ?_, differ, fun entry mem => ?_⟩
      · rwa [kept (clash.label, clash.right) (by simp)]
      · rw [kept entry (List.mem_append_left _ mem)]
        exact earlier entry (List.mem_cons_of_mem _ mem)
  · rintro ⟨before, after, rfl, left, differ, earlier⟩
    refine ⟨(label, f) :: before, after, rfl, ?_, differ, fun entry mem => ?_⟩
    · rwa [← kept (clash.label, clash.right) (by simp)]
    · rcases List.mem_cons.mp mem with rfl | mem
      · exact agree
      · rw [← kept entry (List.mem_append_left _ mem)]
        exact earlier entry mem

theorem insertAll_eq_error_iff (distinct : Ordered.Distinct entries) {clash : Clash Label Atom} :
    a.insertAll entries = .error clash ↔ a.FirstClash entries clash := by
  induction entries generalizing a with
  | nil => simp [insertAll, FirstClash]
  | cons head rest ih =>
      obtain ⟨label, f⟩ := head
      rw [insertAll_cons_eq_error_iff]
      by_cases agree : ∀ g, a.get? label = some g → (g == f) = true
      · rw [firstClash_cons_iff distinct agree, ← ih (List.pairwise_cons.mp distinct).2]
        constructor
        · rintro (⟨g, found, differ, -⟩ | ⟨-, later⟩)
          · simp [agree g found] at differ
          · exact later
        · exact fun later => .inr ⟨agree, later⟩
      · push Not at agree
        obtain ⟨g, found, differ⟩ := agree
        rw [ne_eq, Bool.not_eq_true] at differ
        constructor
        · rintro (⟨g, found, differ, rfl⟩ | ⟨agree, -⟩)
          · exact ⟨[], rest, rfl, found, differ, by simp⟩
          · simp [agree g found] at differ
        · rintro ⟨_ | ⟨head, before⟩, after, split, left, differ', earlier⟩
          · obtain ⟨⟨rfl, rfl⟩, rfl⟩ :
                (label = clash.label ∧ f = clash.right) ∧ rest = after := by simpa using split
            exact .inl ⟨clash.left, left, differ', rfl⟩
          · obtain ⟨rfl, -⟩ : (label, f) = head ∧ _ := by simpa using split
            have agree := earlier (label, f) List.mem_cons_self g found
            simp [agree] at differ

theorem beq_of_insertAll (distinct : Ordered.Distinct entries)
    (inserted : a.insertAll entries = .ok c) {label : Label} {f g : Formula Atom}
    (left : a.get? label = some f) (right : Ordered.find? label entries = some g) :
    (f == g) = true := by
  induction entries generalizing a with
  | nil => cases right
  | cons head rest ih =>
      obtain ⟨l, k⟩ := head
      obtain ⟨agree, later⟩ := insertAll_cons_eq_ok_iff.mp inserted
      by_cases same : (l == label) = true
      · obtain rfl : k = g := by simpa [Ordered.find?, same] using right
        exact agree f ((Ordered.find?_congr same a.entries).trans left)
      · exact ih (List.pairwise_cons.mp distinct).2 later (by simpa [same] using left)
          (by simpa [Ordered.find?, same] using right)

end

/-! ### Bindings as a whole -/

variable [LawfulBEq Label]

theorem get?_eq_some_iff {a : Assumptions Label Atom} {label : Label} {f : Formula Atom} :
    a.get? label = some f ↔ (label, f) ∈ a.entries :=
  Ordered.find?_eq_some_iff a.distinct

theorem get?_single_eq_some_iff {bound label : Label} {f g : Formula Atom} :
    (single bound g).get? label = some f ↔ label = bound ∧ f = g := by
  rw [get?_single]
  constructor
  · intro found
    obtain ⟨rfl, rfl⟩ : bound = label ∧ g = f := by simpa using found
    exact ⟨rfl, rfl⟩
  · rintro ⟨rfl, rfl⟩
    simp

theorem get?_erase_eq_some_iff {a : Assumptions Label Atom} {erased label : Label}
    {f : Formula Atom} :
    (a.erase erased).get? label = some f ↔ label ≠ erased ∧ a.get? label = some f := by
  by_cases same : erased = label
  · simp [same]
  · simp [same, Ne.symm same]

theorem mem_formulas {a : Assumptions Label Atom} {f : Formula Atom} :
    f ∈ a.formulas ↔ ∃ label, a.get? label = some f := by
  simp [formulas, get?_eq_some_iff]

theorem mem_labels {a : Assumptions Label Atom} {label : Label} :
    label ∈ a.labels ↔ ∃ f, a.get? label = some f := by
  simp [labels, get?_eq_some_iff]

theorem labels_nodup (a : Assumptions Label Atom) : a.labels.Nodup := a.distinct.nodup_keys

theorem eq_empty_of_equiv {a : Assumptions Label Atom} (same : a.Equiv empty) : a = empty := by
  refine eq_empty_of_size (List.length_eq_zero_iff.mpr (List.eq_nil_iff_forall_not_mem.mpr ?_))
  rintro ⟨label, f⟩ mem
  have found := get?_eq_some_iff.mpr mem
  simp [same label] at found

theorem equiv_erase_of_equiv_insert {a b : Assumptions Label Atom} {label : Label}
    {f : Formula Atom} (fresh : a.get? label = none) (same : b.Equiv (a.insert label f)) :
    (b.erase label).Equiv a := by
  intro l
  have read := same l
  by_cases eq : label = l
  · subst eq
    simp [fresh]
  · simpa [eq] using read

/-! ### Unions -/

variable [BEq Atom] [LawfulBEq Atom]

/-- The clash that keeps two sets from being merged: a label with what it names in either. -/
theorem get?_of_merge_error {a b : Assumptions Label Atom} {clash : Clash Label Atom}
    (h : a.merge b = .error clash) :
    a.get? clash.label = some clash.left ∧ b.get? clash.label = some clash.right ∧
      clash.left ≠ clash.right := by
  obtain ⟨before, after, split, left, differ, -⟩ := (insertAll_eq_error_iff b.distinct).mp h
  exact ⟨left, get?_eq_some_iff.mpr (by simp [split]), by simpa using differ⟩

theorem agree_of_merge {a b c : Assumptions Label Atom} (h : a.merge b = .ok c) : a.Agree b :=
  fun _ _ _ left right => eq_of_beq (beq_of_insertAll b.distinct h left right)

theorem exists_merge_iff {a b : Assumptions Label Atom} :
    (∃ c, a.merge b = .ok c) ↔ a.Agree b := by
  constructor
  · rintro ⟨c, h⟩
    exact agree_of_merge h
  · intro agree
    cases merged : a.merge b with
    | ok c => exact ⟨c, rfl⟩
    | error clash =>
        obtain ⟨left, right, differ⟩ := get?_of_merge_error merged
        exact absurd (agree _ _ _ left right) differ

/-- A union binds what either side binds. -/
theorem get?_merge {a b c : Assumptions Label Atom} (h : a.merge b = .ok c) {label : Label}
    {f : Formula Atom} :
    c.get? label = some f ↔ a.get? label = some f ∨ b.get? label = some f := by
  have agree := agree_of_merge h label
  have union : c.get? label = (b.get? label).or (a.get? label) :=
    get?_insertAll b.distinct h label
  rw [union]
  cases right : b.get? label with
  | none => simp
  | some g =>
      simp only [Option.some_or, Option.some.injEq]
      constructor
      · exact .inr
      · rintro (left | eq)
        · exact (agree f g left right).symm
        · exact eq

theorem exists_merge_of_equiv {a b c : Assumptions Label Atom} (left : a.Equiv c)
    (right : b.Equiv c) : ∃ d, a.merge b = .ok d ∧ d.Equiv c := by
  have agree : a.Agree b := by
    intro label f g hf hg
    rw [left label] at hf
    rw [right label] at hg
    exact Option.some.inj (hf.symm.trans hg)
  obtain ⟨d, union⟩ := exists_merge_iff.mpr agree
  refine ⟨d, union, fun label => Option.ext fun f => ?_⟩
  rw [get?_merge union, left label, right label, or_self]

end Assumptions

end Deduction
