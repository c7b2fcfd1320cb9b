import Deduction.Proofs.Tree
import Deduction.Script.Replay

/-!
Replays of scripts as runs: the steps are applied one after another, and each of them adds its proof
to those of the steps before.

A script replays to a proof exactly when it is valid, all of its steps run, and the proof of the
last one shows the goal. Every proof in a run is the proof of some tree.
-/

namespace Deduction

variable {Label Atom : Type}

def Inference.labels {Ref : Type} : Inference Ref Label Atom → List Label
  | .suppose _ label => [label]
  | .implIntro label _ => [label]
  | .disjElim _ _ leftLabel _ rightLabel => [leftLabel, rightLabel]
  | _ => []

def Script.labels (s : Script Label Atom) : List Label :=
  s.steps.flatMap fun step => step.inference.labels

/-! ### Validity -/

/-- The index of the step that a refusal is about. -/
def Script.Invalid.index? : Script.Invalid → Option Nat
  | .noSteps _ => none
  | .duplicateId index _ => some index
  | .notEarlier index _ _ => some index

/-- The first step fits the ids in use and the check goes on, or the refusal is about it. -/
theorem validateFrom_cons_cases (index : Nat) (seen : List Text) (step : Step Label Atom)
    (rest : List (Step Label Atom)) :
    (step.id ∉ seen ∧ ∀ ref ∈ step.refs, ref ∈ seen) ∧
        validateFrom index seen (step :: rest) = validateFrom (index + 1) (step.id :: seen) rest ∨
      ¬ (step.id ∉ seen ∧ ∀ ref ∈ step.refs, ref ∈ seen) ∧
        ∃ reason, validateFrom index seen (step :: rest) = .error reason ∧
          reason.index? = some index := by
  by_cases duplicate : step.id ∈ seen
  · right
    refine ⟨fun fits => fits.1 duplicate, .duplicateId index step.id, ?_, rfl⟩
    simp [validateFrom, duplicate]
  · have fresh : seen.contains step.id = false := by simpa using duplicate
    cases missing : step.refs.find? fun ref => !seen.contains ref with
    | none =>
        left
        refine ⟨⟨duplicate, by simpa using missing⟩, ?_⟩
        simp only [validateFrom, fresh, missing, Bool.false_eq_true, if_false]
    | some ref =>
        right
        have absent : ref ∉ seen := by simpa using List.find?_some missing
        refine ⟨fun fits => absent (fits.2 ref (List.mem_of_find?_eq_some missing)),
          .notEarlier index step.id ref, ?_, rfl⟩
        simp only [validateFrom, fresh, missing, Bool.false_eq_true, if_false]

theorem validateFrom_cons_eq_ok_iff {index : Nat} {seen : List Text} {step : Step Label Atom}
    {rest : List (Step Label Atom)} :
    validateFrom index seen (step :: rest) = .ok () ↔
      step.id ∉ seen ∧ (∀ ref ∈ step.refs, ref ∈ seen) ∧
        validateFrom (index + 1) (step.id :: seen) rest = .ok () := by
  rw [← and_assoc]
  rcases validateFrom_cons_cases index seen step rest with
    ⟨fits, later⟩ | ⟨misfit, reason, failed, -⟩
  · rw [later]
    exact ⟨fun valid => ⟨fits, valid⟩, fun valid => valid.2⟩
  · rw [failed]
    exact ⟨fun valid => by simp at valid, fun valid => absurd valid.1 misfit⟩

theorem validateFrom_append_eq_ok_iff {index : Nat} {seen : List Text}
    {steps : List (Step Label Atom)} {step : Step Label Atom} :
    validateFrom index seen (steps ++ [step]) = .ok () ↔
      validateFrom index seen steps = .ok () ∧ step.id ∉ steps.map Step.id ++ seen ∧
        ∀ ref ∈ step.refs, ref ∈ steps.map Step.id ++ seen := by
  induction steps generalizing index seen with
  | nil =>
      rw [List.nil_append, validateFrom_cons_eq_ok_iff]
      simp [validateFrom]
  | cons head rest ih =>
      have sameSeen : ∀ ref, ref ∈ rest.map Step.id ++ head.id :: seen ↔
          ref ∈ (head :: rest).map Step.id ++ seen := by
        intro ref
        simp only [List.map_cons, List.cons_append, List.mem_append, List.mem_cons]
        tauto
      simp only [List.cons_append, validateFrom_cons_eq_ok_iff, ih, sameSeen, and_assoc]

theorem Script.steps_ne_nil_of_validate {s : Script Label Atom} (valid : s.validate = .ok ()) :
    s.steps ≠ [] := by
  intro empty
  simp [Script.validate, empty] at valid

theorem Script.validateFrom_of_validate {s : Script Label Atom} (valid : s.validate = .ok ()) :
    validateFrom 0 [] s.steps = .ok () := by
  simpa [Script.validate, Script.steps_ne_nil_of_validate valid] using valid

/-! ### Single steps -/

variable [BEq Label]

/-- The proof that a reference names, where it is needed. -/
def lookUp (proofs : List (Text × Proof Label Atom)) (ref : Text) :
    Except (StepError Label Atom) (Proof Label Atom) :=
  match Ordered.find? ref proofs with
  | some p => .ok p
  | none => .error (.unknownRef ref)

@[simp]
theorem lookUp_eq_ok_iff {proofs : List (Text × Proof Label Atom)} {ref : Text}
    {p : Proof Label Atom} : lookUp proofs ref = .ok p ↔ Ordered.find? ref proofs = some p := by
  unfold lookUp
  split <;> simp_all

omit [BEq Label] in
/-- What is resolved are the references, each of them to what it finds. -/
theorem Inference.exists_ref_of_resolve {Ref Ref' Error : Type} {find : Ref → Except Error Ref'}
    {i : Inference Ref Label Atom} {j : Inference Ref' Label Atom}
    (resolved : i.resolve find = .ok j) {found : Ref'} (mem : found ∈ j.refs) :
    ∃ ref ∈ i.refs, find ref = .ok found := by
  cases i <;>
    simp only [Inference.resolve, bind_eq_ok_iff, pure_eq_ok_iff] at resolved <;>
    grind [Inference.refs]

omit [BEq Label] in
theorem Inference.formulas_of_resolve {Ref Ref' Error : Type} {find : Ref → Except Error Ref'}
    {i : Inference Ref Label Atom} {j : Inference Ref' Label Atom}
    (resolved : i.resolve find = .ok j) : j.formulas = i.formulas := by
  cases i <;>
    simp only [Inference.resolve, bind_eq_ok_iff, pure_eq_ok_iff] at resolved <;>
    grind [Inference.formulas]

omit [BEq Label] in
theorem Inference.refs_map {Ref Ref' Label' Atom' : Type} (mapRef : Ref → Ref')
    (mapLabel : Label → Label') (mapFormula : Formula Atom → Formula Atom')
    (i : Inference Ref Label Atom) :
    (i.map mapRef mapLabel mapFormula).refs = i.refs.map mapRef := by
  cases i <;> rfl

omit [BEq Label] in
theorem Inference.formulas_map {Ref Ref' Label' Atom' : Type} (mapRef : Ref → Ref')
    (mapLabel : Label → Label') (mapFormula : Formula Atom → Formula Atom')
    (i : Inference Ref Label Atom) :
    (i.map mapRef mapLabel mapFormula).formulas = i.formulas.map mapFormula := by
  cases i <;> rfl

variable [BEq Atom] [LawfulBEq Atom]

theorem Step.apply_eq_ok_iff {step : Step Label Atom} {proofs : List (Text × Proof Label Atom)}
    {p : Proof Label Atom} :
    (step.apply fun ref => Ordered.find? ref proofs) = .ok p ↔
      ∃ j, step.inference.resolve (lookUp proofs) = .ok j ∧ j.apply = .ok p := by
  unfold Step.apply
  rw [bind_eq_ok_iff]
  refine exists_congr fun j => and_congr_right fun _ => ?_
  cases j.apply with
  | ok q =>
      simp only [pure_eq_ok_iff, Except.ok.injEq]
      exact eq_comm
  | error e => simp [throw, throwThe, MonadExceptOf.throw]

/-- An inference from proofs of trees yields the proof of a tree. -/
theorem Inference.exists_tree {j : Inference (Proof Label Atom) Label Atom} {q : Proof Label Atom}
    (premises : ∀ p ∈ j.refs, ∃ tree : Tree Label Atom, tree.Yields p) (applied : j.apply = .ok q) :
    ∃ tree : Tree Label Atom, tree.Yields q := by
  cases j with
  | suppose f label =>
      obtain rfl : Proof.suppose f label = q := by simpa [Inference.apply] using applied
      exact ⟨_, .suppose⟩
  | conjIntro left right =>
      obtain ⟨_, hl⟩ := premises left (by simp [Inference.refs])
      obtain ⟨_, hr⟩ := premises right (by simp [Inference.refs])
      exact ⟨_, .conjIntro hl hr applied⟩
  | conjElim proof side =>
      obtain ⟨_, h⟩ := premises proof (by simp [Inference.refs])
      exact ⟨_, .conjElim h applied⟩
  | implElim premise implication =>
      obtain ⟨_, hp⟩ := premises premise (by simp [Inference.refs])
      obtain ⟨_, hq⟩ := premises implication (by simp [Inference.refs])
      exact ⟨_, .implElim hp hq applied⟩
  | implIntro label proof =>
      obtain ⟨_, h⟩ := premises proof (by simp [Inference.refs])
      exact ⟨_, .implIntro h applied⟩
  | disjIntro proof other side =>
      obtain ⟨_, h⟩ := premises proof (by simp [Inference.refs])
      obtain rfl : proof.disjIntro other side = q := by simpa [Inference.apply] using applied
      exact ⟨_, .disjIntro h⟩
  | disjElim disjunction leftCase leftLabel rightCase rightLabel =>
      obtain ⟨_, hr⟩ := premises disjunction (by simp [Inference.refs])
      obtain ⟨_, hs⟩ := premises leftCase (by simp [Inference.refs])
      obtain ⟨_, ht⟩ := premises rightCase (by simp [Inference.refs])
      exact ⟨_, .disjElim hr hs ht applied⟩

/-! ### Runs -/

/-- All steps can be applied, and lead from the proofs at the start to those at the end. -/
inductive Runs : List (Text × Proof Label Atom) → List (Step Label Atom) →
    List (Text × Proof Label Atom) → Prop
  | nil {proofs} : Runs proofs [] proofs
  | cons {proofs step rest p later} : (step.apply fun ref => Ordered.find? ref proofs) = .ok p →
      Runs (Ordered.put step.id p proofs) rest later → Runs proofs (step :: rest) later

theorem Runs.append {proofs middle later : List (Text × Proof Label Atom)}
    {steps more : List (Step Label Atom)} (runs : Runs proofs steps middle)
    (runsOn : Runs middle more later) : Runs proofs (steps ++ more) later := by
  induction runs with
  | nil => exact runsOn
  | cons applied _ ih => exact .cons applied (ih runsOn)

/-- In a run from proofs of trees, all proofs are proofs of trees. -/
theorem Runs.exists_tree {proofs later : List (Text × Proof Label Atom)}
    {steps : List (Step Label Atom)} (runs : Runs proofs steps later)
    (start : ∀ ref p, Ordered.find? ref proofs = some p → ∃ tree : Tree Label Atom, tree.Yields p) :
    ∀ ref p, Ordered.find? ref later = some p → ∃ tree : Tree Label Atom, tree.Yields p := by
  induction runs with
  | nil => exact start
  | @cons proofs step rest p later applied _ ih =>
      apply ih
      intro ref q found
      rw [Ordered.find?_put] at found
      split at found
      · obtain ⟨j, resolved, applied⟩ := Step.apply_eq_ok_iff.mp applied
        obtain rfl : p = q := by simpa using found
        refine Inference.exists_tree (fun p mem => ?_) applied
        obtain ⟨ref, -, found⟩ := Inference.exists_ref_of_resolve resolved mem
        exact start ref p (lookUp_eq_ok_iff.mp found)
      · exact start ref q found

theorem Runs.trace {proofs later : List (Text × Proof Label Atom)}
    {steps : List (Step Label Atom)} (runs : Runs proofs steps later) :
    (Trace.from proofs steps).stopped = none ∧
      ∀ last, steps.getLast? = some last → ∃ p, Ordered.find? last.id later = some p ∧
        (Trace.from proofs steps).done.getLast? = some (last, p) := by
  induction runs with
  | nil => simp [Trace.from]
  | @cons proofs step rest p later applied runs ih =>
      obtain ⟨completed, final⟩ := ih
      simp only [Trace.from, applied]
      refine ⟨completed, fun last isLast => ?_⟩
      cases rest with
      | nil =>
          obtain rfl : step = last := by simpa using isLast
          cases runs
          exact ⟨p, by simp [Ordered.find?_put], by simp [Trace.from]⟩
      | cons next more =>
          obtain ⟨q, found, done⟩ := final last (by simpa using isLast)
          refine ⟨q, found, ?_⟩
          rw [List.getLast?_cons, done]
          rfl

theorem exists_runs_of_trace {proofs : List (Text × Proof Label Atom)}
    {steps : List (Step Label Atom)} (completed : (Trace.from proofs steps).stopped = none) :
    ∃ later, Runs proofs steps later := by
  induction steps generalizing proofs with
  | nil => exact ⟨proofs, .nil⟩
  | cons step rest ih =>
      cases applied : step.apply fun ref => Ordered.find? ref proofs with
      | error e => simp [Trace.from, applied] at completed
      | ok p =>
          simp only [Trace.from, applied] at completed
          obtain ⟨later, runs⟩ := ih completed
          exact ⟨later, .cons applied runs⟩

theorem Script.replay_eq_ok_iff {s : Script Label Atom} {p : Proof Label Atom} :
    s.replay = .ok (.ok p) ↔
      s.validate = .ok () ∧ ∃ proofs last, Runs [] s.steps proofs ∧
        s.steps.getLast? = some last ∧ Ordered.find? last.id proofs = some p ∧
        p.shows s.goal = .ok p := by
  constructor
  · intro replayed
    unfold Script.replay at replayed
    cases validated : s.validate with
    | error reason => simp [validated] at replayed
    | ok _ =>
        refine ⟨rfl, ?_⟩
        simp only [validated] at replayed
        split at replayed
        · simp at replayed
        · simp at replayed
        · simp at replayed
        · rename_i step q completed done
          obtain ⟨proofs, runs⟩ := exists_runs_of_trace completed
          cases isLast : s.steps.getLast? with
          | none =>
              have empty := List.getLast?_eq_none_iff.mp isLast
              simp [Script.trace, empty, Trace.from] at done
          | some last =>
              obtain ⟨q', found, done'⟩ := runs.trace.2 last isLast
              obtain ⟨rfl, rfl⟩ : step = last ∧ q = q' := by
                simpa using done.symm.trans done'
              cases shown : q.shows s.goal with
              | error e => simp [shown] at replayed
              | ok q' =>
                  obtain rfl : q' = p := by simpa [shown] using replayed
                  obtain rfl := (Proof.shows_eq_ok_iff.mp shown).2.2
                  exact ⟨proofs, step, runs, rfl, found, shown⟩
  · rintro ⟨validated, proofs, last, runs, isLast, found, shown⟩
    obtain ⟨completed, final⟩ := runs.trace
    obtain ⟨q, found', done⟩ := final last isLast
    obtain rfl : p = q := Option.some.inj (found.symm.trans found')
    simp [Script.replay, validated, Script.trace, completed, done, shown]

theorem Script.closed_of_replay {s : Script Label Atom} {p : Proof Label Atom}
    (replayed : s.replay = .ok (.ok p)) : p.assumptions = .empty ∧ p.conclusion = s.goal := by
  obtain ⟨-, -, -, -, -, -, shown⟩ := Script.replay_eq_ok_iff.mp replayed
  obtain ⟨closed, conclusion, -⟩ := Proof.shows_eq_ok_iff.mp shown
  exact ⟨closed, conclusion⟩

/-! ### Replays of valid scripts -/

omit [BEq Atom] [LawfulBEq Atom] [BEq Label] in
/-- What cannot be resolved is one of the references. -/
theorem Inference.exists_ref_of_resolve_error {Ref Ref' Error : Type}
    {find : Ref → Except Error Ref'} {i : Inference Ref Label Atom} {e : Error}
    (failed : i.resolve find = .error e) : ∃ ref ∈ i.refs, find ref = .error e := by
  cases i <;>
    simp only [Inference.resolve, bind_eq_error_iff, pure, Except.pure, reduceCtorEq, and_false,
      exists_false, or_false] at failed <;>
    grind [Inference.refs]

theorem Step.unknownRef_of_apply {step : Step Label Atom}
    {proofs : List (Text × Proof Label Atom)} {ref : Text}
    (failed : (step.apply fun ref => Ordered.find? ref proofs) = .error (.unknownRef ref)) :
    ref ∈ step.refs ∧ Ordered.find? ref proofs = none := by
  unfold Step.apply at failed
  rcases bind_eq_error_iff.mp failed with unresolved | ⟨j, -, broken⟩
  · obtain ⟨other, mem, missing⟩ := Inference.exists_ref_of_resolve_error unresolved
    split at missing
    · simp at missing
    · rename_i absent
      obtain rfl : other = ref := by simpa using missing
      exact ⟨mem, absent⟩
  · cases applied : j.apply with
    | ok p => simp [applied, pure, Except.pure] at broken
    | error e => simp [applied, throw, throwThe, MonadExceptOf.throw] at broken

/-- Running steps, given some proofs, comes to a step at a time when other proofs are bound. -/
inductive ComesTo : List (Text × Proof Label Atom) → List (Step Label Atom) →
    Step Label Atom → List (Text × Proof Label Atom) → Prop
  | here {proofs step rest} : ComesTo proofs (step :: rest) step proofs
  | later {proofs head rest p step bound} :
      (head.apply fun ref => Ordered.find? ref proofs) = .ok p →
      ComesTo (Ordered.put head.id p proofs) rest step bound →
      ComesTo proofs (head :: rest) step bound

theorem Trace.comesTo_of_stopped {steps : List (Step Label Atom)}
    {proofs : List (Text × Proof Label Atom)} {step : Step Label Atom} {e : StepError Label Atom}
    (stopped : (Trace.from proofs steps).stopped = some (step, e)) :
    ∃ bound, ComesTo proofs steps step bound ∧
      (step.apply fun ref => Ordered.find? ref bound) = .error e := by
  induction steps generalizing proofs with
  | nil => simp [Trace.from] at stopped
  | cons head rest ih =>
      cases applied : head.apply fun ref => Ordered.find? ref proofs with
      | error e' =>
          obtain ⟨rfl, rfl⟩ : head = step ∧ e' = e := by simpa [Trace.from, applied] using stopped
          exact ⟨proofs, .here, applied⟩
      | ok p =>
          obtain ⟨bound, comes, failed⟩ := ih (by simpa [Trace.from, applied] using stopped)
          exact ⟨bound, .later applied comes, failed⟩

/-- Steps of a valid script find what they refer to: every step that is done has bound its id. -/
theorem ComesTo.exists_find? {proofs bound : List (Text × Proof Label Atom)}
    {steps : List (Step Label Atom)} {step : Step Label Atom}
    (comes : ComesTo proofs steps step bound) {index : Nat} {seen : List Text}
    (valid : validateFrom index seen steps = .ok ())
    (known : ∀ ref ∈ seen, ∃ p, Ordered.find? ref proofs = some p) :
    ∀ ref ∈ step.refs, ∃ p, Ordered.find? ref bound = some p := by
  induction comes generalizing index seen with
  | here =>
      obtain ⟨-, earlier, -⟩ := validateFrom_cons_eq_ok_iff.mp valid
      exact fun ref mem => known ref (earlier ref mem)
  | @later proofs head rest p step bound applied _ ih =>
      obtain ⟨-, -, validRest⟩ := validateFrom_cons_eq_ok_iff.mp valid
      apply ih validRest
      intro ref mem
      by_cases same : head.id = ref
      · exact ⟨p, by simp [Ordered.find?_put, same]⟩
      · obtain ⟨q, found⟩ := known ref (by simpa [Ne.symm same] using mem)
        exact ⟨q, by simpa [Ordered.find?_put, same] using found⟩

/-- The steps of a valid script stop only where they break a rule: references to earlier steps are
bound. -/
theorem Trace.stopped_of_valid {index : Nat} {steps : List (Step Label Atom)}
    (valid : validateFrom index [] steps = .ok ()) {step : Step Label Atom}
    {e : StepError Label Atom} (stopped : (Trace.from [] steps).stopped = some (step, e)) :
    ∃ error, e = .rule error := by
  obtain ⟨bound, comes, failed⟩ := Trace.comesTo_of_stopped stopped
  cases e with
  | rule error => exact ⟨error, rfl⟩
  | unknownRef ref =>
      obtain ⟨mem, missing⟩ := Step.unknownRef_of_apply failed
      obtain ⟨p, found⟩ := comes.exists_find? valid (by simp) ref mem
      simp [found] at missing

theorem Script.exists_verdict {s : Script Label Atom} (valid : s.validate = .ok ()) :
    ∃ verdict, s.replay = .ok verdict := by
  have nonempty := Script.steps_ne_nil_of_validate valid
  cases stopped : s.trace.stopped with
  | some failure =>
      obtain ⟨step, e⟩ := failure
      have ordered := Script.validateFrom_of_validate valid
      obtain ⟨error, rfl⟩ := Trace.stopped_of_valid ordered stopped
      exact ⟨.error (.step step error), by simp [Script.replay, valid, stopped]⟩
  | none =>
      obtain ⟨proofs, runs⟩ := exists_runs_of_trace stopped
      obtain ⟨p, -, last⟩ := runs.trace.2 _ (List.getLast?_eq_some_getLast nonempty)
      have done : s.trace.done.getLast? = some (s.steps.getLast nonempty, p) := last
      cases shown : p.shows s.goal with
      | ok q => exact ⟨.ok q, by simp [Script.replay, valid, stopped, done, shown]⟩
      | error e => exact ⟨.error (.goal e), by simp [Script.replay, valid, stopped, done, shown]⟩

end Deduction
