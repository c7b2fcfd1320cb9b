import Deduction.Proofs.Replay

/-!
Replays of scripts that share steps.

A step reads the proofs that it refers to and nothing else, and in a valid script no proof is ever
replaced. So a step that has its proof at the end of one replay is given the same proof in every
other valid order, and steps that the last one does not use can be left out.
-/

namespace Deduction

section

variable {Label Atom : Type}

theorem Inference.resolve_congr {Ref Ref' Error : Type} {find other : Ref → Except Error Ref'}
    {i : Inference Ref Label Atom} (same : ∀ ref ∈ i.refs, find ref = other ref) :
    i.resolve find = i.resolve other := by
  cases i <;> simp_all [Inference.resolve, Inference.refs]

/-- The steps of a valid script have ids that are not in use before. -/
theorem id_notMem_of_validateFrom {index : Nat} {seen : List Text}
    {steps : List (Step Label Atom)} (valid : validateFrom index seen steps = .ok ())
    {step : Step Label Atom} (mem : step ∈ steps) : step.id ∉ seen := by
  induction steps generalizing index seen with
  | nil => cases mem
  | cons head rest ih =>
      obtain ⟨fresh, -, later⟩ := validateFrom_cons_eq_ok_iff.mp valid
      rcases List.mem_cons.mp mem with rfl | mem
      · exact fresh
      · exact fun used => ih later mem (List.mem_cons_of_mem _ used)

variable [BEq Label] [BEq Atom]

/-- A step reads no proofs but those that it refers to. -/
theorem Step.apply_congr [ReflBEq Atom] {step : Step Label Atom}
    {proofs other : Text → Option (Proof Label Atom)}
    (same : ∀ ref ∈ step.refs, proofs ref = other ref) : step.apply proofs = step.apply other := by
  unfold Step.apply
  rw [Inference.resolve_congr]
  intro ref mem
  rw [same ref mem]

/-- A step has a proof, and is given it by the proofs around it. -/
def Step.Settled [ReflBEq Atom] (step : Step Label Atom)
    (proofs : List (Text × Proof Label Atom)) : Prop :=
  ∃ p, Ordered.find? step.id proofs = some p ∧
    (step.apply fun ref => Ordered.find? ref proofs) = .ok p

variable [LawfulBEq Atom]

theorem Runs.find?_eq {proofs later : List (Text × Proof Label Atom)}
    {steps : List (Step Label Atom)} (runs : Runs proofs steps later) {ref : Text}
    (untouched : ∀ step ∈ steps, step.id ≠ ref) :
    Ordered.find? ref later = Ordered.find? ref proofs := by
  induction runs with
  | nil => rfl
  | @cons proofs step rest p later _ _ ih =>
      rw [ih fun other mem => untouched other (List.mem_cons_of_mem _ mem), Ordered.find?_put]
      simp [untouched step List.mem_cons_self]

/-- At the end of a valid run every step is settled: what it refers to is never replaced. -/
theorem Runs.settled {proofs later : List (Text × Proof Label Atom)}
    {steps : List (Step Label Atom)} (runs : Runs proofs steps later) {index : Nat}
    {seen : List Text} (valid : validateFrom index seen steps = .ok ()) :
    ∀ step ∈ steps, step.Settled later := by
  induction runs generalizing index seen with
  | nil => exact fun step mem => absurd mem List.not_mem_nil
  | @cons proofs step rest p later applied runs ih =>
      obtain ⟨fresh, earlier, validRest⟩ := validateFrom_cons_eq_ok_iff.mp valid
      rw [List.forall_mem_cons]
      refine ⟨⟨p, ?_, ?_⟩, ih validRest⟩
      · rw [runs.find?_eq, Ordered.find?_put]
        · simp
        · intro other mem same
          exact id_notMem_of_validateFrom validRest mem (by simp [same])
      · rw [← applied]
        apply Step.apply_congr
        intro ref mem
        have whole : Runs proofs (step :: rest) later := .cons applied runs
        apply whole.find?_eq
        rintro other listed rfl
        exact id_notMem_of_validateFrom valid listed (earlier _ mem)

/-- Settled steps run again, in every valid order and from any proofs that agree with theirs. -/
theorem exists_runs_of_settled {index : Nat} {seen : List Text} {steps : List (Step Label Atom)}
    {proofs settled : List (Text × Proof Label Atom)}
    (valid : validateFrom index seen steps = .ok ())
    (agree : ∀ ref ∈ seen, Ordered.find? ref proofs = Ordered.find? ref settled)
    (all : ∀ step ∈ steps, step.Settled settled) :
    ∃ later, Runs proofs steps later ∧
      ∀ step ∈ steps, Ordered.find? step.id later = Ordered.find? step.id settled := by
  induction steps generalizing index seen proofs with
  | nil => exact ⟨proofs, .nil, by simp⟩
  | cons step rest ih =>
      obtain ⟨fresh, earlier, validRest⟩ := validateFrom_cons_eq_ok_iff.mp valid
      obtain ⟨⟨p, found, given⟩, allRest⟩ := List.forall_mem_cons.mp all
      have applied : (step.apply fun ref => Ordered.find? ref proofs) = .ok p := by
        rw [← given]
        apply Step.apply_congr
        exact fun ref mem => agree ref (earlier ref mem)
      have agreeNext : ∀ ref ∈ step.id :: seen,
          Ordered.find? ref (Ordered.put step.id p proofs) = Ordered.find? ref settled := by
        intro ref mem
        rw [Ordered.find?_put]
        by_cases same : step.id = ref
        · simp [← same, found]
        · simpa [same] using agree ref (by simpa [Ne.symm same] using mem)
      obtain ⟨later, runs, kept⟩ := ih validRest agreeNext allRest
      refine ⟨later, .cons applied runs, ?_⟩
      rw [List.forall_mem_cons]
      refine ⟨?_, kept⟩
      rw [runs.find?_eq, agreeNext step.id List.mem_cons_self]
      intro other mem same
      exact id_notMem_of_validateFrom validRest mem (by simp [same])

/-- A valid script with some of the steps, in whatever order, ends with the same proof if it ends
with the same step. -/
theorem Script.replay_of_subset {s t : Script Label Atom} {p : Proof Label Atom}
    (valid : t.validate = .ok ()) (goal : t.goal = s.goal)
    (last : t.steps.getLast? = s.steps.getLast?) (subset : t.steps ⊆ s.steps)
    (replayed : s.replay = .ok (.ok p)) : t.replay = .ok (.ok p) := by
  obtain ⟨validated, proofs, final, runs, isLast, found, shown⟩ :=
    Script.replay_eq_ok_iff.mp replayed
  have settled := runs.settled (Script.validateFrom_of_validate validated)
  obtain ⟨later, runsAgain, kept⟩ : ∃ later, Runs [] t.steps later ∧
      ∀ step ∈ t.steps, Ordered.find? step.id later = Ordered.find? step.id proofs := by
    apply exists_runs_of_settled (Script.validateFrom_of_validate valid)
    · simp
    · exact fun step mem => settled step (subset mem)
  have isLastAgain := last.trans isLast
  refine Script.replay_eq_ok_iff.mpr ⟨valid, later, final, runsAgain, isLastAgain, ?_, ?_⟩
  · rw [kept final (List.mem_of_getLast? isLastAgain), found]
  · rw [goal, shown]

/-- A replay depends on nothing but what the last step uses. If a script proves its goal, then every
valid script with the same goal and the same last step that uses only steps of it ends with the same
proof. So of two orders of the same steps, one ends with a proof exactly if the other ends with
it. -/
theorem Script.replay_of_shared_steps {s t : Script Label Atom} (valid : s.validate = .ok ())
    (valid' : t.validate = .ok ()) (goal : t.goal = s.goal)
    (last : t.steps.getLast? = s.steps.getLast?) :
    ((∀ step ∈ t.steps, step ∈ s.steps) →
        ∀ p, s.replay = .ok (.ok p) → t.replay = .ok (.ok p)) ∧
      (t.steps.Perm s.steps → ∀ p, s.replay = .ok (.ok p) ↔ t.replay = .ok (.ok p)) := by
  refine ⟨fun subset p => replay_of_subset valid' goal last (fun _ => subset _), ?_⟩
  intro same p
  constructor
  · exact replay_of_subset valid' goal last same.subset
  · exact replay_of_subset valid goal.symm last.symm same.symm.subset

end

/-- Steps to a pair from its parts, with one that no other step uses. -/
def pairSteps : List (Step Label String) := [
  ⟨"spare", .suppose (.var "r") (.number 1)⟩,
  ⟨"left", .suppose (.var "p") (.name "x")⟩,
  ⟨"right", .suppose (.var "q") (.number 2)⟩,
  ⟨"pair", .conjIntro "left" "right"⟩,
  ⟨"inner", .implIntro (.number 2) "pair"⟩,
  ⟨"outer", .implIntro (.name "x") "inner"⟩]

/-- The steps at some places of the list, in the order of the places. -/
def pairScript (places : List Nat) : Script Label String where
  name := "pair"
  goal := .impl (.var "p") (.impl (.var "q") (.conj (.var "p") (.var "q")))
  steps := places.filterMap fun place => pairSteps[place]?

theorem pairScript_reordered :
    (pairScript [0, 1, 2, 3, 4, 5]).replay = .ok (.ok ⟨(pairScript []).goal, .empty⟩) ∧
      (pairScript [2, 1, 3, 4, 5]).replay = .ok (.ok ⟨(pairScript []).goal, .empty⟩) ∧
      (pairScript [2, 1, 0, 3, 4, 5]).replay = .ok (.ok ⟨(pairScript []).goal, .empty⟩) := by
  have replayed :
      (pairScript [0, 1, 2, 3, 4, 5]).replay = .ok (.ok ⟨(pairScript []).goal, .empty⟩) := rfl
  refine ⟨replayed, ?_, ?_⟩
  · exact (Script.replay_of_shared_steps rfl rfl rfl rfl).1 (by decide) _ replayed
  · exact ((Script.replay_of_shared_steps rfl rfl rfl rfl).2 (by decide) _).mp replayed

end Deduction
