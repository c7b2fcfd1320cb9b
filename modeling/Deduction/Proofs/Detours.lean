import Deduction.Proofs.Congruence

/-!
Introductions that an elimination follows at once.

A proof whose hypothesis is discharged, only to be supplied by another proof, shows what it showed
before. It depends on what the two proofs depend on, and on nothing else. A choice that was made by
introducing a disjunction leads to the same conclusion by way of the case that was chosen.
-/

namespace Deduction

namespace Proof

variable {Label Atom : Type} [BEq Label] [BEq Atom]

section

variable [ReflBEq Atom]

/-- Discharge a hypothesis, and supply a proof of it. -/
def detour (p : Proof Label Atom) (label : Label) (q : Proof Label Atom) : Result Label Atom := do
  let implication ← q.implIntro label
  p.implElim implication

theorem detour_eq_ok_iff {p q r : Proof Label Atom} {label : Label} :
    p.detour label q = .ok r ↔
      ∃ f c, q.assumptions.get? label = some f ∧ (f == p.conclusion) = true ∧
        p.assumptions.merge (q.assumptions.erase label) = .ok c ∧ r = ⟨q.conclusion, c⟩ := by
  simp only [detour, bind_eq_ok_iff, implIntro_eq_ok_iff, implElim_eq_ok_iff_beq]
  constructor
  · rintro ⟨_, ⟨f, found, rfl⟩, _, _, c, ⟨⟩, same, merged, rfl⟩
    exact ⟨f, c, found, same, merged, rfl⟩
  · rintro ⟨f, c, found, same, merged, rfl⟩
    exact ⟨_, ⟨f, found, rfl⟩, f, q.conclusion, c, rfl, same, merged, rfl⟩

theorem conclusion_of_detour {p q r : Proof Label Atom} {label : Label}
    (taken : p.detour label q = .ok r) : r.conclusion = q.conclusion := by
  obtain ⟨_, _, _, _, _, rfl⟩ := detour_eq_ok_iff.mp taken
  rfl

end

variable [EquivBEq Label] [EquivBEq Atom] {p q r : Proof Label Atom} {label : Label}
  {f : Formula Atom}

theorem exists_detour_iff (bound : q.assumptions.Binds label p.conclusion) :
    (∃ r, p.detour label q = .ok r) ↔
      ∀ l f g, p.assumptions.get? l = some f → (q.assumptions.erase label).get? l = some g →
        (f == g) = true := by
  rw [← Assumptions.exists_merge_iff_beq]
  obtain ⟨f, found, same⟩ := bound
  constructor
  · rintro ⟨r, taken⟩
    obtain ⟨_, c, _, _, merged, _⟩ := detour_eq_ok_iff.mp taken
    exact ⟨c, merged⟩
  · rintro ⟨c, merged⟩
    exact ⟨_, detour_eq_ok_iff.mpr ⟨f, c, found, same, merged, rfl⟩⟩

theorem binds_of_detour (taken : p.detour label q = .ok r) (l : Label) (f : Formula Atom) :
    r.assumptions.Binds l f ↔
      p.assumptions.Binds l f ∨ (q.assumptions.erase label).Binds l f := by
  obtain ⟨_, c, _, _, merged, rfl⟩ := detour_eq_ok_iff.mp taken
  exact Assumptions.binds_merge merged

/-- A detour can be taken if one set binds all that the two proofs need, and needs no more. -/
theorem exists_detour_within {c : Assumptions Label Atom}
    (bound : q.assumptions.Binds label p.conclusion)
    (left : ∀ l f, p.assumptions.Binds l f → c.Binds l f)
    (right : ∀ l f, (q.assumptions.erase label).Binds l f → c.Binds l f) :
    ∃ r, p.detour label q = .ok r ∧ r.conclusion = q.conclusion ∧
      ∀ l f, r.assumptions.Binds l f → c.Binds l f := by
  obtain ⟨r, taken⟩ := (exists_detour_iff bound).mpr fun l f g inP inQ =>
    (left l f ⟨f, inP, BEq.rfl⟩).beq (right l g ⟨g, inQ, BEq.rfl⟩)
  refine ⟨r, taken, conclusion_of_detour taken, fun l f binds => ?_⟩
  exact ((binds_of_detour taken l f).mp binds).elim (left l f) (right l f)

/-- A hypothesis that is discharged and supposed again comes to stand first, and nothing else
changes. -/
theorem exists_detour_suppose (bound : q.assumptions.Binds label f) :
    ∃ r, (suppose f label).detour label q = .ok r ∧ r.conclusion = q.conclusion ∧
      r.assumptions.entries = (label, f) :: (q.assumptions.erase label).entries := by
  obtain ⟨g, found, same⟩ := bound
  have absent : (q.assumptions.erase label).get? label = none := by simp
  have apart : Ordered.Distinct ([(label, f)] ++ (q.assumptions.erase label).entries) :=
    List.pairwise_cons.mpr
      ⟨Assumptions.unbound_of_get?_eq_none absent, (q.assumptions.erase label).distinct⟩
  obtain ⟨c, merged, entries⟩ :=
    Assumptions.exists_insertAll_of_distinct (a := .single label f) apart
  exact ⟨_, detour_eq_ok_iff.mpr ⟨g, c, found, same, merged, rfl⟩, rfl, entries⟩

theorem beq_of_detour_suppose (bound : q.assumptions.Binds label f)
    (taken : (suppose f label).detour label q = .ok r) : (r == q) = true := by
  refine beq_iff.mpr ⟨?_, Assumptions.beq_of_binds fun l k => ?_⟩
  · rw [conclusion_of_detour taken]
    exact BEq.rfl
  · rw [binds_of_detour taken, suppose, Assumptions.binds_single_iff, Assumptions.binds_erase_iff]
    by_cases same : (label == l) = true
    · have named := (Assumptions.binds_congr same).mp bound
      simp [same, named.iff]
    · simp [same]

/-! ### Choices that are known -/

variable {s t : Proof Label Atom} {l₁ l₂ : Label} {other : Formula Atom}

/-- The parts of a proof by cases, up to equality of labels and formulas. -/
theorem binds_of_disjElim (applied : q.disjElim s l₁ t l₂ = .ok r) :
    (∃ lhs rhs, q.conclusion = .disj lhs rhs ∧ s.assumptions.Binds l₁ lhs ∧
      t.assumptions.Binds l₂ rhs) ∧
    r.conclusion = s.conclusion ∧ (t.conclusion == s.conclusion) = true ∧
    ∀ l f, r.assumptions.Binds l f ↔ q.assumptions.Binds l f ∨
      (s.assumptions.erase l₁).Binds l f ∨ (t.assumptions.erase l₂).Binds l f := by
  obtain ⟨lhs, rhs, left, right, cases, c, shape, inLeft, inRight, sameLeft, sameRight, same, inner,
    outer, rfl⟩ := disjElim_eq_ok_iff_beq.mp applied
  refine ⟨⟨lhs, rhs, shape, ⟨left, inLeft, sameLeft⟩, ⟨right, inRight, sameRight⟩⟩, rfl,
    BEq.symm same, fun l f => ?_⟩
  rw [Assumptions.binds_merge outer, Assumptions.binds_merge inner]

theorem exists_detour_of_left (applied : (p.disjIntro other .left).disjElim s l₁ t l₂ = .ok r) :
    ∃ d, p.detour l₁ s = .ok d ∧ (d.conclusion == r.conclusion) = true ∧
      ∀ l f, d.assumptions.Binds l f → r.assumptions.Binds l f := by
  obtain ⟨⟨_, _, ⟨⟩, bound, -⟩, conclusion, -, union⟩ := binds_of_disjElim applied
  obtain ⟨d, taken, same, within⟩ := exists_detour_within bound
    (fun l f binds => (union l f).mpr (.inl binds))
    (fun l f binds => (union l f).mpr (.inr (.inl binds)))
  refine ⟨d, taken, ?_, within⟩
  rw [same, conclusion]
  exact BEq.rfl

theorem exists_detour_of_right (applied : (p.disjIntro other .right).disjElim s l₁ t l₂ = .ok r) :
    ∃ d, p.detour l₂ t = .ok d ∧ (d.conclusion == r.conclusion) = true ∧
      ∀ l f, d.assumptions.Binds l f → r.assumptions.Binds l f := by
  obtain ⟨⟨_, _, ⟨⟩, -, bound⟩, conclusion, alike, union⟩ := binds_of_disjElim applied
  obtain ⟨d, taken, same, within⟩ := exists_detour_within bound
    (fun l f binds => (union l f).mpr (.inl binds))
    (fun l f binds => (union l f).mpr (.inr (.inr binds)))
  refine ⟨d, taken, ?_, within⟩
  rw [same, conclusion]
  exact alike

/-- An introduction that an elimination follows adds nothing. A hypothesis can be discharged and
supplied by a proof exactly if the two proofs agree about the labels that they share then; the
result has the same conclusion and all the assumptions of both, and no other ones. If it is supposed
again, the proof is as before. A choice that was made by introducing a disjunction can be spared. -/
theorem detours_add_nothing (p q s t : Proof Label Atom) (label l₁ l₂ : Label)
    (c : Formula Atom) :
    (q.assumptions.Binds label p.conclusion →
      ((∃ r, p.detour label q = .ok r) ↔
        ∀ l f g, p.assumptions.get? l = some f → (q.assumptions.erase label).get? l = some g →
          (f == g) = true) ∧
      ∀ r, p.detour label q = .ok r → r.conclusion = q.conclusion ∧
        ∀ l f, r.assumptions.Binds l f ↔
          p.assumptions.Binds l f ∨ (q.assumptions.erase label).Binds l f) ∧
    (∀ f, q.assumptions.Binds label f →
      ∃ r, (suppose f label).detour label q = .ok r ∧ (r == q) = true) ∧
    (∀ r, (p.disjIntro c .left).disjElim s l₁ t l₂ = .ok r → ∃ d, p.detour l₁ s = .ok d ∧
      (d.conclusion == r.conclusion) = true ∧
      ∀ l f, d.assumptions.Binds l f → r.assumptions.Binds l f) ∧
    ∀ r, (p.disjIntro c .right).disjElim s l₁ t l₂ = .ok r → ∃ d, p.detour l₂ t = .ok d ∧
      (d.conclusion == r.conclusion) = true ∧
      ∀ l f, d.assumptions.Binds l f → r.assumptions.Binds l f := by
  refine ⟨fun bound => ⟨exists_detour_iff bound, fun r taken => ?_⟩, fun f bound => ?_,
    fun r => exists_detour_of_left, fun r => exists_detour_of_right⟩
  · exact ⟨conclusion_of_detour taken, binds_of_detour taken⟩
  · obtain ⟨r, taken, -, -⟩ := exists_detour_suppose bound
    exact ⟨r, taken, beq_of_detour_suppose bound taken⟩

end Proof

/-- A proof of `a`, under a label that another proof uses for `a` itself. -/
def supplying : Proof Label String :=
  ⟨.var "a", .ofList [(.name "h", .conj (.var "a") (.var "b")), (.name "x", .var "c")]⟩

/-- A proof of `d` that needs `a`, and something under the label that `supplying` has for `c`. -/
def needing (side : String) : Proof Label String :=
  ⟨.var "d", .ofList [(.name "x", .var side), (.name "h", .var "a"), (.number 1, .var "e")]⟩

/-- The label that is discharged stays open through the proof that is supplied. A label that is not
discharged has to name the same formula in both. -/
theorem supplying_spared :
    (∃ r, supplying.detour (.name "h") (needing "c") = .ok r ∧
      r.assumptions.get? (.name "h") = some (.conj (.var "a") (.var "b")) ∧
      ∀ l f, r.assumptions.Binds l f ↔ supplying.assumptions.Binds l f ∨
        ((needing "c").assumptions.erase (.name "h")).Binds l f) ∧
    (¬∃ r, supplying.detour (.name "h") (needing "q") = .ok r) ∧
    (∃ r, (Proof.suppose (.var "a") (.name "h")).detour (.name "h") (needing "q") = .ok r ∧
      (r == needing "q") = true) ∧
    ∃ r, (supplying.disjIntro (.var "a") .left).disjElim (needing "c") (.name "h") (needing "c")
        (.name "h") = .ok r ∧
      ∃ d, supplying.detour (.name "h") (needing "c") = .ok d ∧
        (d.conclusion == r.conclusion) = true ∧
        ∀ l f, d.assumptions.Binds l f → r.assumptions.Binds l f := by
  have agreeing := Proof.detours_add_nothing supplying (needing "c") (needing "c") (needing "c")
    (.name "h") (.name "h") (.name "h") (.var "a")
  have clashing := Proof.detours_add_nothing supplying (needing "q") (needing "q") (needing "q")
    (.name "h") (.name "h") (.name "h") (.var "a")
  refine ⟨⟨_, rfl, rfl, ?_⟩, ?_, ?_, ⟨_, rfl, ?_⟩⟩
  · exact ((agreeing.1 ⟨.var "a", rfl, rfl⟩).2 _ rfl).2
  · intro taken
    have agree := (clashing.1 ⟨.var "a", rfl, rfl⟩).1.mp taken
    exact absurd (agree (.name "x") (.var "c") (.var "q") rfl rfl) (by decide)
  · exact clashing.2.1 (.var "a") ⟨.var "a", rfl, rfl⟩
  · exact agreeing.2.2.1 _ rfl

end Deduction
