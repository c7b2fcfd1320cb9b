import Deduction.Proofs.OpenLabels
import Deduction.Proofs.Replay
import Deduction.Proofs.Workbench.Blocks

/-!
Proofs that outlive their hypotheses.

When a hypothesis is closed, its label is not issued or stacked again. So no discharge on a scope
can close it in a proof that was kept, or in one that is derived from such a proof. It stays open
there, and the proof shows nothing.
-/

namespace Deduction

/-! ### Fresh labels among all labels -/

theorem Decimal.Numeral.pos_of_ofDouble {value : Double} {num : Int} {den : Nat}
    (found : ofDouble value = .fraction num den) : 0 < den := by
  cases value with
  | nan => cases found
  | infinite negative => cases found
  | finite negative mantissa exponent =>
      cases found
      exact Nat.mul_pos Nat.one_pos (Nat.pow_pos (by decide))

theorem Json.pos_of_numeral? {value : Json} {num : Int} {den : Nat}
    (found : value.numeral? = some (.fraction num den)) : 0 < den := by
  cases value with
  | bool | int =>
      cases found
      exact Nat.one_pos
  | real value => exact Decimal.Numeral.pos_of_ofDouble (Option.some.inj found)
  | null | str | arr | obj => cases found

theorem Json.numeral?_of_same {a b : Json} (same : a.same b = true) :
    a.numeral? = none ∧ b.numeral? = none ∨
      ∃ x y, a.numeral? = some x ∧ b.numeral? = some y ∧ x.same y = true := by
  cases a <;> cases b <;> simp_all [Json.same, sameNumber, numeral?]

theorem Json.same_int (a : Json) (n : Int) :
    a.same (.int n) = (a.numeral?.any fun x => x.same (.ofInt n)) := by
  cases a <;> simp [Json.same, sameNumber, numeral?]

/-- Of two equal fractions, both are a given integer or neither is. -/
theorem Decimal.Numeral.same_ofInt_congr {num num' : Int} {den den' : Nat} (pos : 0 < den)
    (pos' : 0 < den') (same : (fraction num den).same (.fraction num' den') = true) (n : Int) :
    (fraction num den).same (.ofInt n) = (fraction num' den').same (.ofInt n) := by
  have cross : num * den' = num' * den := beq_iff_eq.mp same
  have nonzero : (den : Int) ≠ 0 := Int.natCast_ne_zero.mpr (Nat.ne_of_gt pos)
  have nonzero' : (den' : Int) ≠ 0 := Int.natCast_ne_zero.mpr (Nat.ne_of_gt pos')
  rw [Bool.eq_iff_iff]
  simp only [Numeral.same, ofInt, Int.natCast_one, Int.mul_one, beq_iff_eq]
  constructor
  · rintro rfl
    apply Int.eq_of_mul_eq_mul_right nonzero
    rw [← cross, Int.mul_right_comm]
  · rintro rfl
    apply Int.eq_of_mul_eq_mul_right nonzero'
    rw [cross, Int.mul_right_comm]

/-- Values that are equal equal the same integers. -/
theorem Json.same_int_congr {a b : Json} (same : a.same b = true) (n : Int) :
    a.same (.int n) = b.same (.int n) := by
  rw [same_int, same_int]
  rcases numeral?_of_same same with ⟨left, right⟩ | ⟨x, y, left, right, equal⟩
  · rw [left, right]
  · rw [left, right]
    cases x with
    | nan => cases equal
    | infinite negative =>
        cases y with
        | infinite negative' => rfl
        | _ => cases equal
    | fraction num den =>
        cases y with
        | fraction num' den' =>
            have pos := pos_of_numeral? left
            have pos' := pos_of_numeral? right
            exact Decimal.Numeral.same_ofInt_congr pos pos' equal n
        | _ => cases equal

theorem definite_fresh (n : Nat) : Ordered.Definite (FreshLabels.fresh n : Key) := by
  intro a b same
  change a.same b = true at same
  change a.same (.fresh (.int n)) = b.same (.fresh (.int n))
  cases a with
  | fresh serial =>
      cases b with
      | fresh serial' =>
          rw [Key.same] at same
          simp only [Key.same]
          exact Json.same_int_congr same n
      | _ => simp [Key.same] at same
  | _ =>
      cases b with
      | fresh serial' => simp [Key.same] at same
      | _ => simp only [Key.same]

namespace Workbench

/-! ### Rules and discharges on a workbench -/

namespace Bench

theorem proof_of_newProof {i : Inference Premise Key Leaf} {s : State} {marks : Marks}
    {p q : Proof Key Leaf} (done : ((newProof i p).on s).1 = .ok (.proof marks q)) : p = q := by
  cases passed : passedSet? i with
  | some setId =>
      rw [newProof] at done
      simp only [passed] at done
      cases done
      rfl
  | none =>
      rw [newProof] at done
      simp only [passed] at done
      cases done
      rfl

/-- A rule that succeeds on a workbench gives what it gives elsewhere. -/
theorem apply_of_infer [Limits] {i : Inference Premise Key Leaf} {s : State} {marks : Marks}
    {p : Proof Key Leaf} (done : ((infer i).on s).1 = .ok (.proof marks p)) :
    (i.map Premise.proof (·) (·)).apply = .ok p := by
  obtain ⟨fault | checked, t, run, _⟩ := (silent_compareAll
    (i.map Premise.proof (·) (·)).comparisons).quiet.exists_on s
  · simp [infer, run] at done
  · cases applied : (i.map Premise.proof (·) (·)).apply with
    | ok q =>
        rw [infer] at done
        simp only [on_bind, run, andThen_ok, applied] at done
        rw [proof_of_newProof done]
    | error e =>
        cases e with
        | labelNotFound key =>
            cases hashable : key.unhashable? with
            | none => simp [infer, run, applied, requireHashable, hashable] at done
            | some typeName => simp [infer, run, applied, requireHashable, hashable] at done
        | _ => simp [infer, run, applied] at done

/-- A discharge applies the rule for implications, to the label of an open hypothesis. -/
theorem exists_implIntro_of_discharge [Limits] {s : State} {index : Nat} {named : Option Value}
    {marks marks' : Marks} {p q : Proof Key Leaf}
    (done : ((discharge index named (.proof marks p)).on s).1 = .ok (.proof marks' q)) :
    ∃ h ∈ (s.desk.scopeAt index).stack, p.implIntro h.label = .ok q := by
  rcases discharge_cases s index named (.proof marks p) with
    ⟨fault, failed, _⟩ | ⟨value, h, rest, premise, t, result, stack, same, inferred, _⟩
  · rw [failed] at done
    cases done
  · rw [result] at done
    cases done
    cases same
    refine ⟨h, stack ▸ List.mem_cons_self, ?_⟩
    exact apply_of_infer inferred

end Bench

/-! ### Proofs that are derived from a proof -/

/-- A proof that was got from another one by rules and by discharges on scopes, at any later time
and with any other premises. No rule was told to discharge the given label, but the scopes choose
for themselves what they discharge. -/
inductive Descends [Limits] (label : Key) (s : State) (p : Proof Key Leaf) :
    State → Proof Key Leaf → Prop
  | refl : Descends label s p s p
  | meanwhile {t u q} : Descends label s p t q → Leads (fun _ => True) t u → Descends label s p u q
  | infer (i) {t q r premise marks} : Descends label s p t q → premise ∈ i.refs →
      premise.proof = q → (∀ l ∈ i.discharged, (l == label) = false) →
      ((Bench.infer i).on t).1 = .ok (.proof marks r) →
      Descends label s p ((Bench.infer i).on t).2 r
  | discharge (index named marks) {t q r marks'} : Descends label s p t q →
      ((Bench.discharge index named (.proof marks q)).on t).1 = .ok (.proof marks' r) →
      Descends label s p ((Bench.discharge index named (.proof marks q)).on t).2 r

namespace Descends

variable {label : Key} {s t : State} {p q : Proof Key Leaf}

theorem leads [Limits] (descends : Descends label s p t q) : Leads (fun _ => True) s t := by
  induction descends with
  | refl => exact .refl
  | meanwhile _ leads ih => exact ih.trans leads
  | @infer i t _ _ _ _ _ _ _ _ _ ih => exact ih.trans ((Bench.silent_infer i).calls t)
  | @discharge _ _ _ t _ _ _ _ _ ih => exact ih.trans (Bench.calls_discharge trivial t)

/-- A label that no scope can discharge stays open. -/
theorem contains [Limits] (descends : Descends label s p t q) (retired : s.desk.Retired label)
    (bound : p.assumptions.contains label = true) : q.assumptions.contains label = true := by
  obtain ⟨n, _, rfl⟩ := retired.issued
  induction descends with
  | refl => exact bound
  | meanwhile _ _ ih => exact ih
  | @infer i t q r premise marks _ mem same others done ih =>
      have applied := Bench.apply_of_infer done
      refine Inference.contains_of_apply (definite_fresh n) applied ?_ ?_ ih
      · rwa [Inference.discharged_map]
      · rw [Inference.refs_map, ← same]
        exact List.mem_map_of_mem mem
  | @discharge index named marks t q r marks' descends done ih =>
      obtain ⟨h, isOpen, applied⟩ := Bench.exists_implIntro_of_discharge done
      have unused := (retired.since descends.leads.since).unused index h isOpen
      obtain ⟨_, _, rfl⟩ := Proof.implIntro_eq_ok_iff.mp applied
      exact Assumptions.contains_erase (definite_fresh n) unused ih

end Descends

/-- A hypothesis that was open and is not any more cannot be discharged by any scope. Wherever its
label is open, it stays open in all that is derived, and nothing of this is ever shown. -/
theorem Reached.leaked_stays_open [Limits] {s t u : State} (reached : Reached s)
    (leads : Leads (fun _ => True) s t) {index : Nat} {h : Hypothesis Key Leaf}
    (was : h ∈ (s.desk.scopeAt index).stack) (gone : h ∉ (t.desk.scopeAt index).stack)
    {p q : Proof Key Leaf} (bound : p.assumptions.contains h.label = true)
    (descends : Descends h.label t p u q) :
    q.assumptions.contains h.label = true ∧
      ∀ expected, q.shows expected = .error (.openAssumptions q.assumptions.labels) := by
  have retired := leads.since.retired reached.disciplined was gone
  have still := descends.contains retired bound
  exact ⟨still, Proof.shows_of_contains still⟩

def strayHypothesis : Hypothesis Key Leaf := (Scope.empty.push 1 (Term.ofFormula 0 (.var "p"))).1

def laterHypothesis : Hypothesis Key Leaf := (Scope.empty.push 2 (Term.ofFormula 0 (.var "q"))).1

section

variable [Limits]

def strayOpen : State :=
  ((ScopeCall.push 0 strayHypothesis.formula).on (ScopeCall.newScope.on .initial).2).2

def strayReleased : State :=
  ((ScopeCall.release 0 (.hypothesis 0 0 strayHypothesis)).on strayOpen).2

def laterOpen : State := ((ScopeCall.push 0 laterHypothesis.formula).on strayReleased).2

end

def strayAndLater : Inference Premise Key Leaf :=
  .conjIntro ⟨⟨0, 0, .written⟩, strayHypothesis.proof⟩ ⟨⟨0, 0, .written⟩, laterHypothesis.proof⟩

/-- A released hypothesis is joined with another one. The discharge of that leaves it open. -/
theorem stray_stays_open :
    let _ : Limits := .uniform 0
    ∃ u q, Descends strayHypothesis.label strayReleased strayHypothesis.proof u q ∧
      q.assumptions.size = 1 ∧ q.assumptions.contains strayHypothesis.label = true ∧
      ∀ expected, q.shows expected = .error (.openAssumptions q.assumptions.labels) := by
  intro _
  have reached : Reached strayOpen := (Reached.initial.call .newScope).call _
  have leads : Leads (fun _ => True) strayOpen strayReleased := Leads.refl.call _ trivial
  have was : strayHypothesis ∈ (strayOpen.desk.scopeAt 0).stack := List.mem_cons_self
  have gone : strayHypothesis ∉ (strayReleased.desk.scopeAt 0).stack := by
    have nothing : (strayReleased.desk.scopeAt 0).stack.isEmpty = true := by decide +kernel
    rw [List.isEmpty_iff.mp nothing]
    exact List.not_mem_nil
  have kept : Descends strayHypothesis.label strayReleased strayHypothesis.proof laterOpen
      strayHypothesis.proof := Descends.refl.meanwhile (Leads.refl.call _ trivial)
  have joined := kept.infer strayAndLater List.mem_cons_self rfl
    (by simp [strayAndLater, Inference.discharged]) rfl
  have discharged := joined.discharge 0 none ⟨0, 0, .written⟩ rfl
  refine ⟨_, _, discharged, rfl, ?_⟩
  exact reached.leaked_stays_open leads was gone rfl discharged

end Workbench

end Deduction
