import Deduction.Proofs.Cases
import Deduction.Proofs.Command.Checking

/-!
Failures of scripts, and where reports put them.

A replay fails at the first step whose rule is refused, or at its end. The errors are about formulas
of the steps before, so they can be told where those leave room. Both forms of a report tell at
which step a replay fails, but the text takes an empty id for none.
-/

namespace Deduction

section

variable {Label Atom : Type} [BEq Label] [BEq Atom] [LawfulBEq Atom]

/-! ### Failures -/

/-- What it means for a replay to fail: the steps before one run and its rule is refused, or all
steps run and the last proof does not show the goal. -/
inductive Script.FailsWith (s : Script Label Atom) : Failure Label Atom → Prop
  | step {before step after proofs e} : s.steps = before ++ step :: after →
      Runs [] before proofs → (step.apply fun ref => Ordered.find? ref proofs) = .error (.rule e) →
      FailsWith s (.step step e)
  | goal {proofs last p e} : Runs [] s.steps proofs → s.steps.getLast? = some last →
      Ordered.find? last.id proofs = some p → p.shows s.goal = .error e → FailsWith s (.goal e)

theorem Runs.stopped_append {proofs later : List (Text × Proof Label Atom)}
    {before : List (Step Label Atom)} (runs : Runs proofs before later)
    (after : List (Step Label Atom)) :
    (Trace.from proofs (before ++ after)).stopped = (Trace.from later after).stopped := by
  induction runs with
  | nil => rfl
  | cons applied _ ih => simpa [Trace.from, applied] using ih

theorem Step.exists_refused {step : Step Label Atom} {proofs : List (Text × Proof Label Atom)}
    {e : RuleError Label Atom}
    (failed : (step.apply fun ref => Ordered.find? ref proofs) = .error (.rule e)) :
    ∃ j, step.inference.resolve (lookUp proofs) = .ok j ∧ j.apply = .error e := by
  unfold Step.apply at failed
  rcases bind_eq_error_iff.mp failed with unresolved | ⟨j, resolved, broken⟩
  · obtain ⟨ref, -, missing⟩ := Inference.exists_ref_of_resolve_error unresolved
    split at missing <;> cases missing
  · refine ⟨j, resolved, ?_⟩
    split at broken
    · cases broken
    · rename_i refused
      cases broken
      exact refused

theorem ComesTo.exists_runs {proofs bound : List (Text × Proof Label Atom)}
    {steps : List (Step Label Atom)} {step : Step Label Atom}
    (comes : ComesTo proofs steps step bound) :
    ∃ before after, steps = before ++ step :: after ∧ Runs proofs before bound := by
  induction comes with
  | here => exact ⟨[], _, rfl, .nil⟩
  | @later _ head _ _ _ _ applied _ ih =>
      obtain ⟨before, after, rfl, runs⟩ := ih
      exact ⟨head :: before, after, rfl, .cons applied runs⟩

theorem Script.replay_eq_failure_iff {s : Script Label Atom} {failure : Failure Label Atom} :
    s.replay = .ok (.error failure) ↔ s.validate = .ok () ∧ s.FailsWith failure := by
  constructor
  · intro replayed
    unfold Script.replay at replayed
    split at replayed
    · cases replayed
    · rename_i valid
      refine ⟨valid, ?_⟩
      -- a reference that is not bound, a rule that is refused, no steps at all, or a last proof
      split at replayed
      · cases replayed
      · rename_i step e stopped
        cases replayed
        obtain ⟨bound, comes, failed⟩ := Trace.comesTo_of_stopped stopped
        obtain ⟨before, after, split, runs⟩ := comes.exists_runs
        exact .step split runs failed
      · cases replayed
      · rename_i step p completed done
        split at replayed
        · cases replayed
        · rename_i e shown
          cases replayed
          obtain ⟨proofs, runs⟩ := exists_runs_of_trace completed
          have nonempty := Script.steps_ne_nil_of_validate valid
          have isLast := List.getLast?_eq_some_getLast nonempty
          obtain ⟨q, found, last⟩ := runs.trace.2 _ isLast
          obtain ⟨-, rfl⟩ : _ ∧ q = p := by simpa using last.symm.trans done
          exact .goal runs isLast found shown
  · rintro ⟨valid, fails⟩
    cases fails with
    | @step before step after proofs e split runs failed =>
        have stopped : s.trace.stopped = some (step, .rule e) := by
          rw [Script.trace, split, runs.stopped_append]
          simp [Trace.from, failed]
        simp [Script.replay, valid, stopped]
    | goal runs isLast found shown =>
        obtain ⟨completed, final⟩ := runs.trace
        obtain ⟨q, found', done⟩ := final _ isLast
        obtain rfl := Option.some.inj (found.symm.trans found')
        simp [Script.replay, valid, Script.trace, completed, done, shown]

/-! ### Errors -/

variable [LawfulBEq Label] {n : Nat} {e : RuleError Label Atom}

theorem Assumptions.Below.height_le_of_clash {a b : Assumptions Label Atom} (left : a.Below n)
    (right : b.Below n) (failed : Proof.mergeAssumptions a b = .error e) :
    ∀ f ∈ e.formulas, f.height ≤ n := by
  obtain ⟨label, f, g, rfl, namedLeft, namedRight, -⟩ := Proof.clash_of_mergeAssumptions failed
  simp [RuleError.formulas, left.height_le namedLeft, right.height_le namedRight]

/-- A rule that is refused tells of conclusions and assumptions of its premises, and of their
parts. -/
theorem Inference.height_le_of_refused {i : Inference (Proof Label Atom) Label Atom}
    (premises : ∀ q ∈ i.refs, q.Below n) (failed : i.apply = .error e) :
    ∀ f ∈ e.formulas, f.height ≤ n := by
  cases i with
  | suppose _ _ | disjIntro _ _ _ => cases failed
  | conjIntro left right =>
      obtain ⟨-, belowLeft⟩ := premises left (by simp [Inference.refs])
      obtain ⟨-, belowRight⟩ := premises right (by simp [Inference.refs])
      rcases bind_eq_error_iff.mp failed with clash | ⟨_, _, impossible⟩
      · exact belowLeft.height_le_of_clash belowRight clash
      · cases impossible
  | conjElim proof side =>
      obtain ⟨tall, -⟩ := premises proof (by simp [Inference.refs])
      simp only [Inference.apply, Proof.conjElim] at failed
      split at failed
      · cases failed
      · cases failed
      · cases failed
        simpa [RuleError.formulas] using tall
  | implElim premise implication =>
      obtain ⟨short, belowPremise⟩ := premises premise (by simp [Inference.refs])
      obtain ⟨tall, below⟩ := premises implication (by simp [Inference.refs])
      simp only [Inference.apply, Proof.implElim] at failed
      split at failed
      · rename_i lhs rhs conclusion
        rw [conclusion, Formula.height] at tall
        split at failed
        · rcases bind_eq_error_iff.mp failed with clash | ⟨_, _, impossible⟩
          · exact belowPremise.height_le_of_clash below clash
          · cases impossible
        · cases failed
          simp only [RuleError.formulas, List.forall_mem_cons]
          exact ⟨by omega, short, by simp⟩
      · cases failed
        simpa [RuleError.formulas] using tall
  | implIntro label proof =>
      obtain ⟨-, rfl⟩ := Proof.implIntro_eq_error_iff.mp failed
      simp [RuleError.formulas]
  | disjElim r s l₁ t l₂ =>
      obtain ⟨tall, below⟩ := premises r (by simp [Inference.refs])
      obtain ⟨tallLeft, belowLeft⟩ := premises s (by simp [Inference.refs])
      obtain ⟨tallRight, belowRight⟩ := premises t (by simp [Inference.refs])
      have leftOpen {label : Label} {f : Formula Atom}
          (isOpen : Proof.LeftOpen r s l₁ t l₂ label f) : f.height ≤ n := by
        rcases isOpen with named | ⟨-, named⟩ | ⟨-, named⟩
        · exact below.height_le named
        · exact belowLeft.height_le named
        · exact belowRight.height_le named
      have parts {a b : Formula Atom} (conclusion : r.conclusion = .disj a b) :
          a.height ≤ n ∧ b.height ≤ n := by
        rw [conclusion, Formula.height] at tall
        omega
      cases Proof.casesRefused_of_disjElim failed with
      | disjunction _ => simpa [RuleError.formulas] using tall
      | leftLabel _ _ | rightLabel _ _ _ => simp [RuleError.formulas]
      | leftCase conclusion named _ _ =>
          simp [RuleError.formulas, parts conclusion, belowLeft.height_le named]
      | rightCase conclusion _ named _ =>
          simp [RuleError.formulas, parts conclusion, belowRight.height_le named]
      | conclusions _ _ _ _ => simp [RuleError.formulas, tallLeft, tallRight]
      | labels _ _ _ _ one other _ => simp [RuleError.formulas, leftOpen one, leftOpen other]

/-- With every step that runs the bound grows by one. -/
theorem Runs.stays_below {proofs later : List (Text × Proof Label Atom)}
    {steps : List (Step Label Atom)} (runs : Runs proofs steps later)
    (below : ∀ ref p, Ordered.find? ref proofs = some p → p.Below n)
    (low : ∀ step ∈ steps, ∀ f ∈ step.inference.formulas, f.height ≤ n) :
    ∀ ref p, Ordered.find? ref later = some p → p.Below (n + steps.length) := by
  induction runs generalizing n with
  | nil => exact below
  | @cons proofs step rest p later applied _ ih =>
      obtain ⟨first, others⟩ := List.forall_mem_cons.mp low
      have grown := Step.below_of_apply below first applied
      rw [List.length_cons, Nat.add_comm rest.length, ← Nat.add_assoc]
      exact ih (Proof.below_put below grown step.id) fun step mem f listed =>
        Nat.le_succ_of_le (others step mem f listed)

/-- Where the formulas of a script leave room for its steps, every failure can be told. -/
theorem Script.Low.tooDeep_of_failsWith [Limits] {s : Script Label Atom} (low : s.Low)
    {failure : Failure Label Atom} (fails : s.FailsWith failure) :
    failure.error.tooDeep = false := by
  replace low := low Limits.describing (by simp [Limits.ofFormulas])
  let bound := Limits.describing - s.steps.length
  have goal : s.goal.height + s.steps.length ≤ Limits.describing := low s.goal List.mem_cons_self
  have given : ∀ step ∈ s.steps, ∀ f ∈ step.inference.formulas, f.height ≤ bound := by
    intro step mem f listed
    have room := low f (List.mem_cons_of_mem _ (List.mem_flatMap.mpr ⟨step, mem, listed⟩))
    omega
  -- every step that runs raises the bound by one, so after all of them it is at the limit
  have told : ∀ f ∈ failure.error.formulas, f.height ≤ Limits.describing := by
    cases fails with
    | @step before step after proofs e split runs failed =>
        have earlier : ∀ step ∈ before, ∀ f ∈ step.inference.formulas, f.height ≤ bound :=
          fun step mem => given step (split ▸ List.mem_append_left _ mem)
        have below := runs.stays_below (by simp [Ordered.find?]) earlier
        obtain ⟨j, resolved, refused⟩ := Step.exists_refused failed
        have premises : ∀ q ∈ j.refs, q.Below (bound + before.length) := by
          intro q listed
          obtain ⟨ref, -, found⟩ := Inference.exists_ref_of_resolve resolved listed
          exact below ref q (lookUp_eq_ok_iff.mp found)
        have size : before.length ≤ s.steps.length := by simp [split]
        intro f mem
        exact Nat.le_trans (Inference.height_le_of_refused premises refused f mem) (by omega)
    | @goal proofs last p e runs isLast found shown =>
        obtain ⟨tall, -⟩ := runs.stays_below (by simp [Ordered.find?]) given last.id p found
        unfold Proof.shows at shown
        split at shown
        · cases shown
          simp [Failure.error, RuleError.formulas]
        · split at shown
          · cases shown
          · cases shown
            simp only [Failure.error, RuleError.formulas, List.forall_mem_cons]
            exact ⟨by omega, by omega, by simp⟩
  rw [RuleError.tooDeep, List.any_eq_false]
  intro f mem
  simpa [Formula.exceeds] using told f mem

end

/-! ### Places -/

/-- A member of an object. -/
def Json.member? (key : Text) : Json → Option Json
  | .obj fields => Ordered.find? key fields
  | _ => none

namespace Report

/-- The step that a report names to other programs, or `null` in its place. -/
def namedStep? (r : Report) : Option Json := do
  let failure ← r.toJson.member? "failure"
  failure.member? "step"

/-- The text of a report puts a failure at a place. -/
def PutsAt (r : Report) (ascii : Bool) (failure : Failure Label String) (place : Text) : Prop :=
  (r.lines ascii).getLast? = some (s!"    - [{failure.error.kind}] " ++ place ++
    s!" ({failure.rule}): " ++ failure.error.message)

variable {r : Report} {failure : Failure Label String}

theorem putsAt_iff (failed : r.verdict = .error failure) {ascii : Bool} {place : Text} :
    r.PutsAt ascii failure place ↔ location failure = place := by
  have last : (r.lines ascii).getLast? = some (s!"    - [{failure.error.kind}] " ++
      location failure ++ s!" ({failure.rule}): " ++ failure.error.message) := by
    simp only [lines, failed]
    rfl
  simp only [PutsAt, last, Option.some.injEq, Text.append_left_inj, Text.append_right_inj]

theorem namedStep?_eq (failed : r.verdict = .error failure) :
    r.namedStep? = some (textOrNull failure.stepId?) := by
  unfold namedStep? toJson
  rw [failed]
  rfl

theorem location_step (step : Step Label String) (e : RuleError Label String) :
    location (.step step e) =
      if step.id = "" then .plain "final check" else "step '" ++ step.id ++ "'" := by
  simp only [location, Failure.stepId?, Text.isEmpty_iff]

theorem place_ne_final (id : Text) : "step '" ++ id ++ "'" ≠ (.plain "final check" : Text) := by
  intro same
  simpa using congrArg Text.points same

theorem location_eq_step_iff {id : Text} :
    location failure = "step '" ++ id ++ "'" ↔
      ∃ step e, failure = .step step e ∧ step.id = id ∧ id ≠ "" := by
  cases failure with
  | step step e =>
      rw [location_step]
      split
      · rename_i empty
        refine iff_of_false (place_ne_final id).symm ?_
        rintro ⟨_, _, ⟨⟩, rfl, nonempty⟩
        exact nonempty empty
      · rename_i nonempty
        rw [Text.append_left_inj, Text.append_right_inj]
        constructor
        · rintro rfl
          exact ⟨step, e, rfl, rfl, nonempty⟩
        · rintro ⟨_, _, ⟨⟩, same, -⟩
          exact same
  | goal e =>
      refine iff_of_false (place_ne_final id).symm ?_
      rintro ⟨_, _, ⟨⟩, -⟩

theorem location_eq_final_iff :
    location failure = "final check" ↔ ∀ step e, failure = .step step e → step.id = "" := by
  cases failure with
  | step step e =>
      rw [location_step]
      split
      · rename_i empty
        exact iff_of_true rfl (by rintro _ _ ⟨⟩; exact empty)
      · rename_i nonempty
        exact iff_of_false (place_ne_final step.id) fun all => nonempty (all step e rfl)
  | goal e => exact iff_of_true rfl (by rintro _ _ ⟨⟩)

theorem exists_of_low [Limits] {s : Script Label String} (low : s.Low)
    (replayed : s.replay = .ok (.error failure)) (source : Option Text) (ascii : Bool) :
    ∃ r, ofScript s source ascii = .ok r := by
  have shallow := low.shallow
  have told := low.tooDeep_of_failsWith (Script.replay_eq_failure_iff.mp replayed).2
  exact ⟨_, by simp only [ofScript, shallow.goal, shallow.replay, replayed, told]; rfl⟩

theorem verdict_of_ofScript [Limits] {s : Script Label String} {source : Option Text} {ascii : Bool}
    (replayed : s.replay = .ok (.error failure)) (reported : ofScript s source ascii = .ok r) :
    r.verdict = .error failure := by
  have valid := (Script.replay_eq_failure_iff.mp replayed).1
  obtain ⟨verdict, same, rfl⟩ := exists_verdict_of_ofScript valid reported
  cases replayed.symm.trans same
  rfl

/-- A replay that fails does so at a step or at its end. What is told to other programs names the
step, if there is one. The text puts the failure there too, unless the id of the step is empty:
then, and only then, it puts it at the final check although there is a step to name. There is a
report wherever the formulas of the script leave room for its steps. -/
theorem places_agree_unless_unnamed [Limits] {s : Script Label String}
    (replayed : s.replay = .ok (.error failure)) (source : Option Text) (ascii : Bool) :
    s.FailsWith failure ∧ (s.Low → ∃ r, ofScript s source ascii = .ok r) ∧
      ∀ r, ofScript s source ascii = .ok r →
        (∀ id, r.namedStep? = some (.str id) ↔ ∃ step e, failure = .step step e ∧ step.id = id) ∧
        (r.namedStep? = some .null ↔ ∃ e, failure = .goal e) ∧
        (∀ id, r.PutsAt ascii failure ("step '" ++ id ++ "'") ↔
          r.namedStep? = some (.str id) ∧ id ≠ "") ∧
        (r.PutsAt ascii failure "final check" ↔
          r.namedStep? = some .null ∨ r.namedStep? = some (.str "")) ∧
        (((∃ id, r.PutsAt ascii failure ("step '" ++ id ++ "'")) ↔ r.namedStep? ≠ some .null) ↔
          r.namedStep? ≠ some (.str "")) := by
  refine ⟨(Script.replay_eq_failure_iff.mp replayed).2,
    fun low => exists_of_low low replayed source ascii, fun r reported => ?_⟩
  have failed := verdict_of_ofScript replayed reported
  simp only [putsAt_iff failed, namedStep?_eq failed, location_eq_step_iff, location_eq_final_iff]
  cases failure with
  | goal e => simp [Failure.stepId?, textOrNull]
  | step step e =>
      by_cases empty : step.id = ""
      · simp [Failure.stepId?, textOrNull, empty]
      · simp [Failure.stepId?, textOrNull, empty]

end Report

/-- The second step takes a conjunction apart where there is none. -/
def brokenScript (id : Text) : Script Label String :=
  ⟨"broken", .impl (.var "p") (.var "p"),
    [⟨"h", .suppose (.var "p") (.number 1)⟩, ⟨id, .conjElim "h" .left⟩]⟩

def brokenFailure (id : Text) : Failure Label String :=
  .step ⟨id, .conjElim "h" .left⟩ (.notAConjunction (.var "p"))

theorem brokenScript_placed :
    let _ : Limits := .uniform 3
    ∃ r, Report.ofScript (brokenScript "left") none true = .ok r ∧
      r.PutsAt true (brokenFailure "left") "step 'left'" ∧
      r.namedStep? = some (.str "left") := by
  intro limits
  have replayed : (brokenScript "left").replay = .ok (.error (brokenFailure "left")) := rfl
  obtain ⟨-, told, places⟩ := Report.places_agree_unless_unnamed replayed none true
  obtain ⟨r, reported⟩ := told (by decide)
  obtain ⟨named, -, put, -⟩ := places r reported
  have left := (named "left").mpr ⟨_, _, rfl, rfl⟩
  exact ⟨r, reported, (put "left").mpr ⟨left, by decide⟩, left⟩

/-- A script that is loaded and fails at a step, which is named to other programs, while the text
puts the failure at the final check. -/
theorem brokenScript_misplaced :
    let _ : Limits := .uniform 4
    Script.load (brokenScript "").dump = .ok (brokenScript "") ∧
      (brokenScript "").replay = .ok (.error (brokenFailure "")) ∧
      ∃ r, Report.ofScript (brokenScript "") none true = .ok r ∧
        r.namedStep? = some (.str "") ∧ r.PutsAt true (brokenFailure "") "final check" ∧
        ¬r.PutsAt true (brokenFailure "") "step ''" := by
  intro limits
  have portable : (brokenScript "").Portable := ⟨rfl, by decide, by decide⟩
  have replayed : (brokenScript "").replay = .ok (.error (brokenFailure "")) := rfl
  obtain ⟨r, reported⟩ := Report.exists_of_low (by decide) replayed none true
  have failed := Report.verdict_of_ofScript replayed reported
  refine ⟨portable.load_dump ⟨by decide, by decide⟩, replayed, r, reported, ?_, ?_, ?_⟩
  · exact Report.namedStep?_eq failed
  · exact (Report.putsAt_iff failed).mpr rfl
  · rw [Report.putsAt_iff failed]
    decide

end Deduction
