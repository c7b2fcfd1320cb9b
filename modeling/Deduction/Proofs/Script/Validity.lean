import Deduction.Proofs.Script.Reordering
import Deduction.Proofs.Text

/-!
Valid scripts, and what their replays look up.

A script is refused at its first step that has the id of an earlier step or refers to something else
than an earlier step, and accepted if there is none. Whenever the replay of a valid script comes to
a step, the proofs of all steps before are bound, so the references are found.
-/

namespace Deduction

variable {Label Atom : Type}

/-! ### Steps that fit -/

/-- The step at an index has a new id and refers to earlier steps only, if some ids are in use
before the first step. -/
def FitsAfter (seen : List Text) (steps : List (Step Label Atom)) (i : Nat) : Prop :=
  ∀ step, steps[i]? = some step →
    step.id ∉ (steps.take i).map Step.id ++ seen ∧
      ∀ ref ∈ step.refs, ref ∈ (steps.take i).map Step.id ++ seen

theorem fitsAfter_zero_iff {seen : List Text} {step : Step Label Atom}
    {rest : List (Step Label Atom)} :
    FitsAfter seen (step :: rest) 0 ↔ step.id ∉ seen ∧ ∀ ref ∈ step.refs, ref ∈ seen := by
  simp [FitsAfter]

theorem fitsAfter_succ_iff {seen : List Text} {step : Step Label Atom}
    {rest : List (Step Label Atom)} {i : Nat} :
    FitsAfter seen (step :: rest) (i + 1) ↔ FitsAfter (step.id :: seen) rest i := by
  have sameIds : ∀ id, id ∈ ((step :: rest).take (i + 1)).map Step.id ++ seen ↔
      id ∈ (rest.take i).map Step.id ++ step.id :: seen := by
    intro id
    simp only [List.take_succ_cons, List.map_cons, List.cons_append, List.mem_append, List.mem_cons]
    tauto
  simp only [FitsAfter, List.getElem?_cons_succ, sameIds]

theorem validateFrom_eq_ok_iff {index : Nat} {seen : List Text} {steps : List (Step Label Atom)} :
    validateFrom index seen steps = .ok () ↔ ∀ i, FitsAfter seen steps i := by
  induction steps generalizing index seen with
  | nil => simp [validateFrom, FitsAfter]
  | cons step rest ih =>
      rw [validateFrom_cons_eq_ok_iff, ih, ← and_assoc, ← fitsAfter_zero_iff]
      simp only [← fitsAfter_succ_iff]
      constructor
      · rintro ⟨first, others⟩ i
        cases i with
        | zero => exact first
        | succ i => exact others i
      · intro fits
        exact ⟨fits 0, fun i => fits (i + 1)⟩

/-- The refusal names the first step that does not fit. -/
theorem exists_first_misfit_of_validateFrom {index : Nat} {seen : List Text}
    {steps : List (Step Label Atom)} {reason : Script.Invalid}
    (failed : validateFrom index seen steps = .error reason) :
    ∃ i, reason.index? = some (index + i) ∧ ¬ FitsAfter seen steps i ∧
      ∀ j < i, FitsAfter seen steps j := by
  induction steps generalizing index seen with
  | nil => simp [validateFrom] at failed
  | cons step rest ih =>
      rcases validateFrom_cons_cases index seen step rest with
        ⟨first, later⟩ | ⟨misfit, reason', failed', named⟩
      · rw [← fitsAfter_zero_iff] at first
        rcases ih (later.symm.trans failed) with ⟨i, named, misfit, before⟩
        rw [Nat.add_right_comm] at named
        refine ⟨i + 1, named, fitsAfter_succ_iff.not.mpr misfit, fun j lt => ?_⟩
        cases j with
        | zero => exact first
        | succ j => exact fitsAfter_succ_iff.mpr (before j (Nat.lt_of_succ_lt_succ lt))
      · obtain rfl : reason' = reason := Except.error.inj (failed'.symm.trans failed)
        exact ⟨0, named, fitsAfter_zero_iff.not.mpr misfit, by simp⟩

/-! ### Steps by their indices -/

theorem mem_ids_take_iff {steps : List (Step Label Atom)} {i : Nat} {id : Text} :
    id ∈ (steps.take i).map Step.id ↔ ∃ j < i, ∃ step, steps[j]? = some step ∧ step.id = id := by
  rw [List.mem_map]
  constructor
  · rintro ⟨step, mem, same⟩
    rcases List.mem_iff_getElem?.mp mem with ⟨j, found⟩
    rw [List.getElem?_take] at found
    split at found
    · exact ⟨j, ‹j < i›, step, found, same⟩
    · cases found
  · rintro ⟨j, lt, step, found, same⟩
    refine ⟨step, List.mem_iff_getElem?.mpr ⟨j, ?_⟩, same⟩
    rw [List.getElem?_take_of_lt lt, found]

/-- The step at an index has an id that no earlier step has, and refers to earlier steps only. -/
def Script.FitsAt (s : Script Label Atom) (i : Nat) : Prop :=
  ∀ step, s.steps[i]? = some step →
    (∀ j < i, ∀ other, s.steps[j]? = some other → other.id ≠ step.id) ∧
      ∀ ref ∈ step.refs, ∃ j < i, ∃ earlier, s.steps[j]? = some earlier ∧ earlier.id = ref

theorem Script.fitsAt_iff {s : Script Label Atom} {i : Nat} :
    s.FitsAt i ↔ FitsAfter [] s.steps i := by
  simp only [Script.FitsAt, FitsAfter, List.append_nil, mem_ids_take_iff, not_exists, not_and,
    ne_eq]

theorem Script.validate_eq_ok_iff {s : Script Label Atom} :
    s.validate = .ok () ↔ s.steps ≠ [] ∧ ∀ i, s.FitsAt i := by
  simp only [Script.fitsAt_iff]
  constructor
  · intro valid
    exact ⟨Script.steps_ne_nil_of_validate valid,
      validateFrom_eq_ok_iff.mp (Script.validateFrom_of_validate valid)⟩
  · rintro ⟨nonempty, fits⟩
    have valid : validateFrom 0 [] s.steps = .ok () := validateFrom_eq_ok_iff.mpr fits
    simpa [Script.validate, nonempty] using valid

theorem Script.forall_fitsAt_iff {s : Script Label Atom} :
    (∀ i, s.FitsAt i) ↔ (s.steps.map Step.id).Nodup ∧
      ∀ (i : Nat) (step : Step Label Atom), s.steps[i]? = some step → ∀ ref ∈ step.refs,
        ∃ j < i, ∃ earlier, s.steps[j]? = some earlier ∧ earlier.id = ref := by
  rw [List.nodup_iff_getElem?_ne_getElem?]
  simp only [List.getElem?_map, List.length_map]
  constructor
  · intro fits
    refine ⟨fun j i lt within same => ?_, fun i step found => (fits i step found).2⟩
    have found := List.getElem?_eq_getElem within
    have found' := List.getElem?_eq_getElem (Nat.lt_trans lt within)
    rw [found, found'] at same
    exact (fits i _ found).1 j lt _ found' (Option.some.inj same)
  · rintro ⟨distinct, earlier⟩ i step found
    refine ⟨fun j lt other found' same => ?_, earlier i step found⟩
    apply distinct j i lt (List.getElem?_eq_some_iff.mp found).1
    rw [found, found', Option.map_some, Option.map_some, same]

theorem Script.exists_first_misfit {s : Script Label Atom} (nonempty : s.steps ≠ [])
    {reason : Script.Invalid} (failed : s.validate = .error reason) :
    ∃ i, reason.index? = some i ∧ ¬ s.FitsAt i ∧ ∀ j < i, s.FitsAt j := by
  simp only [Script.fitsAt_iff]
  have failed' : validateFrom 0 [] s.steps = .error reason := by
    simpa [Script.validate, nonempty] using failed
  rcases exists_first_misfit_of_validateFrom failed' with ⟨i, named, misfit⟩
  exact ⟨i, by simpa using named, misfit⟩

theorem Script.Invalid.message_of_index? {reason : Script.Invalid} {i : Nat}
    (named : reason.index? = some i) :
    ∃ rest : Text, reason.message = .plain s!"steps[{i}]" ++ rest := by
  cases reason with
  | noSteps name => simp [Script.Invalid.index?] at named
  | duplicateId index id =>
      obtain rfl : index = i := by simpa [Script.Invalid.index?] using named
      refine ⟨": duplicate step id '" ++ id ++ "'", ?_⟩
      have split : "]: duplicate step id '" = "]" ++ ": duplicate step id '" := rfl
      simp only [Script.Invalid.message, toString, split, String.append_assoc, Text.append_assoc,
        ← Text.plain_append_plain]
  | notEarlier index id ref =>
      obtain rfl : index = i := by simpa [Script.Invalid.index?] using named
      refine ⟨" ('" ++ id ++ "'): refers to '" ++ ref ++ "', which is not an earlier step", ?_⟩
      have split : "] ('" = "]" ++ " ('" := rfl
      simp only [Script.Invalid.message, toString, split, String.append_assoc, Text.append_assoc,
        ← Text.plain_append_plain]

/-! ### Replays -/

section

variable [BEq Label] [BEq Atom] [LawfulBEq Atom]

theorem Trace.comesTo_of_done {steps : List (Step Label Atom)}
    {proofs : List (Text × Proof Label Atom)} {step : Step Label Atom} {p : Proof Label Atom}
    (done : (step, p) ∈ (Trace.from proofs steps).done) :
    ∃ bound, ComesTo proofs steps step bound ∧
      (step.apply fun ref => Ordered.find? ref bound) = .ok p := by
  induction steps generalizing proofs with
  | nil => simp [Trace.from] at done
  | cons head rest ih =>
      cases applied : head.apply fun ref => Ordered.find? ref proofs with
      | error e => simp [Trace.from, applied] at done
      | ok q =>
          simp only [Trace.from, applied, List.mem_cons] at done
          rcases done with same | done
          · obtain ⟨rfl, rfl⟩ : step = head ∧ p = q := by simpa using same
            exact ⟨proofs, .here, applied⟩
          · rcases ih done with ⟨bound, comes, applied'⟩
            exact ⟨bound, .later applied comes, applied'⟩

/-- A script is valid exactly if it has steps, their ids differ, and every reference is to an
earlier step; otherwise the refusal names the first step at which this fails. The replay of a valid
script finds every reference at the time when it comes to the step, so it ends with a verdict. What
a step yields depends on nothing but the proofs that it refers to. -/
theorem Script.validate_exact (s : Script Label Atom) :
    (s.validate = .ok () ↔ s.steps ≠ [] ∧ (s.steps.map Step.id).Nodup ∧
      ∀ (i : Nat) (step : Step Label Atom), s.steps[i]? = some step → ∀ ref ∈ step.refs,
        ∃ j < i, ∃ earlier, s.steps[j]? = some earlier ∧ earlier.id = ref) ∧
    (s.steps ≠ [] → s.validate ≠ .ok () → ∃ reason i, s.validate = .error reason ∧
      reason.index? = some i ∧ (∃ rest : Text, reason.message = .plain s!"steps[{i}]" ++ rest) ∧
      ¬ s.FitsAt i ∧ ∀ j < i, s.FitsAt j) ∧
    (s.validate = .ok () →
      (∀ step proofs, ComesTo [] s.steps step proofs →
        ∀ ref ∈ step.refs, ∃ p, Ordered.find? ref proofs = some p) ∧
      (∀ step p, (step, p) ∈ s.trace.done → ∃ proofs, ComesTo [] s.steps step proofs ∧
        (step.apply fun ref => Ordered.find? ref proofs) = .ok p) ∧
      (∀ step e, s.trace.stopped = some (step, e) → ∃ proofs, ComesTo [] s.steps step proofs ∧
        (step.apply fun ref => Ordered.find? ref proofs) = .error e) ∧
      (∀ ref, s.replay ≠ .error (.unknownRef ref)) ∧ ∃ verdict, s.replay = .ok verdict) ∧
    ∀ (step : Step Label Atom) (proofs other : Text → Option (Proof Label Atom)),
      (∀ ref ∈ step.refs, proofs ref = other ref) → step.apply proofs = step.apply other := by
  refine ⟨?_, ?_, ?_, fun step proofs other same => Step.apply_congr same⟩
  · rw [Script.validate_eq_ok_iff, Script.forall_fitsAt_iff]
  · intro nonempty invalid
    cases failed : s.validate with
    | ok _ => exact absurd failed invalid
    | error reason =>
        rcases Script.exists_first_misfit nonempty failed with ⟨i, named, misfit⟩
        exact ⟨reason, i, rfl, named, Script.Invalid.message_of_index? named, misfit⟩
  · intro valid
    rcases Script.exists_verdict valid with ⟨verdict, replayed⟩
    have ordered := Script.validateFrom_of_validate valid
    refine ⟨fun step proofs comes => comes.exists_find? ordered (by simp),
      fun step p done => Trace.comesTo_of_done done,
      fun step e stopped => Trace.comesTo_of_stopped stopped, ?_, verdict, replayed⟩
    simp [replayed]

end

/-- A valid script, and one with a reference to a missing step before an id that is used twice. -/
theorem pairScript_checked :
    (∀ step proofs, ComesTo [] (pairScript [0, 1, 2, 3, 4, 5]).steps step proofs →
      ∀ ref ∈ step.refs, ∃ p, Ordered.find? ref proofs = some p) ∧
    (pairScript [0, 1, 3, 1]).validate = .error (.notEarlier 2 "pair" "right") ∧
      ¬ (pairScript [0, 1, 3, 1]).FitsAt 2 ∧ ∀ j < 2, (pairScript [0, 1, 3, 1]).FitsAt j := by
  have failed : (pairScript [0, 1, 3, 1]).validate = .error (.notEarlier 2 "pair" "right") := rfl
  refine ⟨((Script.validate_exact _).2.2.1 rfl).1, failed, ?_⟩
  rcases (Script.validate_exact (pairScript [0, 1, 3, 1])).2.1 (by decide) (by simp [failed]) with
    ⟨reason, i, failed', named, -, misfit⟩
  obtain rfl : .notEarlier 2 "pair" "right" = reason := Except.error.inj (failed.symm.trans failed')
  obtain rfl : 2 = i := Option.some.inj named
  exact misfit

end Deduction
