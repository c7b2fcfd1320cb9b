import Deduction.Proofs.Rules

/-!
What stays open when rules are applied.

A rule leaves open what is open in its premises, apart from the labels that it is told to discharge.
Labels may be equal in meaning and yet spelled differently, and a set keeps the spelling that it got
first. So this is said of labels that all equal labels agree about.
-/

namespace Deduction

namespace Ordered

variable {Key Value : Type} [BEq Key] {key label : Key} {value : Value}
  {entries : List (Key × Value)}

/-- Of two equal keys, both equal this one or neither does. -/
def Definite (key : Key) : Prop := ∀ a b : Key, (a == b) = true → (a == key) = (b == key)

@[simp]
theorem has_cons (k : Key) (v : Value) (rest : List (Key × Value)) :
    has key ((k, v) :: rest) = (k == key || has key rest) := by
  by_cases same : (k == key) = true
  · simp [has, find?, same]
  · simp [has, find?, same]

theorem has_put_of_has (bound : has key entries = true) :
    has key (put label value entries) = true := by
  induction entries with
  | nil => cases bound
  | cons head rest ih =>
      obtain ⟨k, v⟩ := head
      rw [has_cons, Bool.or_eq_true] at bound
      by_cases found : (k == label) = true
      · simp [put, found, bound]
      · rcases bound with same | later
        · simp [put, found, same]
        · simp [put, found, ih later]

/-- The key may be there in another spelling, which equals the same keys. -/
theorem has_put_of_beq (definite : Definite key) (same : (label == key) = true) :
    has key (put label value entries) = true := by
  induction entries with
  | nil => simp [put, same]
  | cons head rest ih =>
      obtain ⟨k, v⟩ := head
      by_cases found : (k == label) = true
      · have also : (k == key) = true := by rw [definite k label found, same]
        simp [put, found, also]
      · simp [put, found, ih]

theorem has_erase (definite : Definite key) (other : (label == key) = false)
    (bound : has key entries = true) : has key (erase label entries) = true := by
  induction entries with
  | nil => cases bound
  | cons head rest ih =>
      obtain ⟨k, v⟩ := head
      rw [has_cons, Bool.or_eq_true] at bound
      by_cases found : (k == label) = true
      · have differs : (k == key) = false := by rw [definite k label found, other]
        simpa [erase, found, differs] using bound
      · rcases bound with same | later
        · simp [erase, found, same]
        · simp [erase, found, ih later]

end Ordered

namespace Assumptions

variable {Label Atom : Type} [BEq Label] {a b c : Assumptions Label Atom} {label : Label}

theorem contains_erase (definite : Ordered.Definite label) {discharged : Label}
    (other : (discharged == label) = false) (bound : a.contains label = true) :
    (a.erase discharged).contains label = true :=
  Ordered.has_erase definite other bound

variable [BEq Atom] [ReflBEq Atom]

theorem contains_insertAll (definite : Ordered.Definite label)
    {entries : List (Label × Formula Atom)} (inserted : a.insertAll entries = .ok c)
    (bound : a.contains label = true ∨ Ordered.has label entries = true) :
    c.contains label = true := by
  induction entries generalizing a with
  | nil =>
      cases inserted
      rcases bound with bound | nothing
      · exact bound
      · cases nothing
  | cons head rest ih =>
      obtain ⟨added, f⟩ := head
      obtain ⟨-, later⟩ := insertAll_cons_eq_ok_iff.mp inserted
      apply ih later
      rcases bound with bound | bound
      · exact .inl (Ordered.has_put_of_has bound)
      · by_cases same : (added == label) = true
        · exact .inl (Ordered.has_put_of_beq definite same)
        · exact .inr (by simpa [same] using bound)

theorem contains_merge (definite : Ordered.Definite label) (merged : a.merge b = .ok c)
    (bound : a.contains label = true ∨ b.contains label = true) : c.contains label = true :=
  contains_insertAll definite merged bound

end Assumptions

namespace Inference

/-- The labels that a rule is told to discharge. -/
def discharged {Ref Label Atom : Type} : Inference Ref Label Atom → List Label
  | .implIntro label _ => [label]
  | .disjElim _ _ leftLabel _ rightLabel => [leftLabel, rightLabel]
  | _ => []

theorem discharged_map {Ref Ref' Label Atom : Type} (i : Inference Ref Label Atom)
    (mapRef : Ref → Ref') : (i.map mapRef (·) (·)).discharged = i.discharged := by
  cases i <;> rfl

variable {Label Atom : Type} [BEq Label] [BEq Atom] [ReflBEq Atom]
  {i : Inference (Proof Label Atom) Label Atom} {label : Label} {p q : Proof Label Atom}

/-- A label that is open in a premise stays open, unless it is one that the rule discharges. -/
theorem contains_of_apply (definite : Ordered.Definite label) (applied : i.apply = .ok p)
    (others : ∀ l ∈ i.discharged, (l == label) = false) (premise : q ∈ i.refs)
    (bound : q.assumptions.contains label = true) : p.assumptions.contains label = true := by
  cases i with
  | suppose f l => cases premise
  | conjIntro left right =>
      obtain ⟨c, merged, rfl⟩ := Proof.conjIntro_eq_ok_iff.mp applied
      apply Assumptions.contains_merge definite merged
      rcases List.mem_pair.mp premise with rfl | rfl
      · exact .inl bound
      · exact .inr bound
  | conjElim proof side =>
      obtain ⟨_, _, _, rfl⟩ := Proof.conjElim_eq_ok_iff.mp applied
      obtain rfl := List.mem_singleton.mp premise
      exact bound
  | implElim left right =>
      obtain ⟨_, _, c, _, _, merged, rfl⟩ := Proof.implElim_eq_ok_iff_beq.mp applied
      apply Assumptions.contains_merge definite merged
      rcases List.mem_pair.mp premise with rfl | rfl
      · exact .inl bound
      · exact .inr bound
  | implIntro l proof =>
      obtain ⟨_, _, rfl⟩ := Proof.implIntro_eq_ok_iff.mp applied
      obtain rfl := List.mem_singleton.mp premise
      exact Assumptions.contains_erase definite (others l List.mem_cons_self) bound
  | disjIntro proof other side =>
      obtain rfl := Except.ok.inj applied
      obtain rfl := List.mem_singleton.mp premise
      rw [Proof.disjIntro_eq]
      exact bound
  | disjElim r s l₁ t l₂ =>
      obtain ⟨_, _, _, _, cases, c, _, _, _, _, _, _, both, merged, rfl⟩ :=
        Proof.disjElim_eq_ok_iff_beq.mp applied
      apply Assumptions.contains_merge definite merged
      simp only [refs, List.mem_cons, List.not_mem_nil, or_false] at premise
      rcases premise with rfl | rfl | rfl
      · exact .inl bound
      · right
        have kept := Assumptions.contains_erase definite (others l₁ (by simp [discharged])) bound
        exact Assumptions.contains_merge definite both (.inl kept)
      · right
        have kept := Assumptions.contains_erase definite (others l₂ (by simp [discharged])) bound
        exact Assumptions.contains_merge definite both (.inr kept)

end Inference

/-- A proof with an open label shows nothing. -/
theorem Proof.shows_of_contains {Label Atom : Type} [BEq Label] [BEq Atom] [ReflBEq Atom]
    {p : Proof Label Atom} {label : Label} (bound : p.assumptions.contains label = true)
    (expected : Formula Atom) :
    p.shows expected = .error (.openAssumptions p.assumptions.labels) := by
  have notClosed : p.isClosed = false := by
    rw [isClosed, beq_eq_false_iff_ne]
    intro none
    rw [Assumptions.eq_empty_of_size none] at bound
    cases bound
  simp [shows, notClosed]

end Deduction
