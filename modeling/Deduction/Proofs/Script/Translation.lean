import Mathlib.Data.Set.Function
import Deduction.Proofs.Replay
import Deduction.Proofs.Text
import Deduction.Proofs.Translation

/-!
Replays of scripts under a change of names and formulas.

A replay of a translated script runs beside that of the script: after every step the proofs of the
two correspond. There are two uses of this. New names for labels and steps make no difference to a
replay at all, whether it succeeds or not. And a script that proves its goal is a schema: formulas
can be put in the place of its variables.
-/

namespace Deduction

variable {Label Label' Atom Atom' : Type}

/-! ### Correspondences of keys -/

namespace Ordered

variable {Key Key' : Type} [BEq Key] [BEq Key']

theorem keepsKeys_eq : KeepsKeys (Eq : Key → Key → Prop) := by
  rintro k _ l _ rfl rfl
  rfl

theorem keepsKeys_of_injOn [LawfulBEq Key] [LawfulBEq Key'] {rename : Key → Key'}
    {domain : Set Key} (injective : Set.InjOn rename domain) :
    KeepsKeys fun k k' => k ∈ domain ∧ k' = rename k := by
  rintro k _ l _ ⟨hk, rfl⟩ ⟨hl, rfl⟩
  rw [Bool.eq_iff_iff, beq_iff_eq, beq_iff_eq, injective.eq_iff hk hl]

theorem KeepsKeys.biUnique [LawfulBEq Key] [LawfulBEq Key'] {K : Key → Key' → Prop}
    (keeps : KeepsKeys K) : Relator.BiUnique K := by
  constructor
  · intro k l k' hk hl
    simpa using keeps k k' l k' hk hl
  · intro k k' l' hk hl
    simpa using keeps k k' k l' hk hl

theorem KeepsKeys.forall_mem [LawfulBEq Key] [LawfulBEq Key'] {K : Key → Key' → Prop}
    (keeps : KeepsKeys K) {keys seen : List Key} {keys' seen' : List Key'}
    (same : List.Forall₂ K keys keys') (seenSame : List.Forall₂ K seen seen')
    (all : ∀ key ∈ keys, key ∈ seen) : ∀ key ∈ keys', key ∈ seen' := by
  induction same with
  | nil => simp
  | @cons k k' _ _ first _ ih =>
      rw [List.forall_mem_cons] at all ⊢
      exact ⟨(List.rel_mem keeps.biUnique first seenSame).mp all.1, ih all.2⟩

end Ordered

/-! ### Steps -/

/-- Errors of one sort: of the same kind, if a rule was broken. -/
inductive StepError.Alike : StepError Label Atom → StepError Label' Atom' → Prop
  | unknownRef {ref ref'} : Alike (.unknownRef ref) (.unknownRef ref')
  | rule {e e'} : e'.kind = e.kind → Alike (.rule e) (.rule e')

section

variable [BEq Label] [BEq Label'] {τ : Translation Label Label' Atom Atom'}
  {I : Text → Text → Prop}

structure Step.Matches (τ : Translation Label Label' Atom Atom') (I : Text → Text → Prop)
    (step : Step Label Atom) (step' : Step Label' Atom') : Prop where
  id : I step.id step'.id
  inference : step.inference.Matches τ I step'.inference

structure Script.Matches (τ : Translation Label Label' Atom Atom') (I : Text → Text → Prop)
    (s : Script Label Atom) (t : Script Label' Atom') : Prop where
  goal : t.goal = τ.formula s.goal
  steps : List.Forall₂ (Step.Matches τ I) s.steps t.steps

theorem Inference.matches_map {Ref Ref' : Type} {R : Ref → Ref' → Prop} {mapRef : Ref → Ref'}
    {mapLabel : Label → Label'} {i : Inference Ref Label Atom}
    (refs : ∀ ref ∈ i.refs, R ref (mapRef ref))
    (labels : ∀ label ∈ i.labels, τ.label label (mapLabel label)) :
    i.Matches τ R (i.map mapRef mapLabel τ.formula) := by
  cases i with
  | suppose f label => exact .suppose (labels label (by simp [Inference.labels]))
  | conjIntro p q =>
      exact .conjIntro (refs p (by simp [Inference.refs])) (refs q (by simp [Inference.refs]))
  | conjElim p side => exact .conjElim (refs p (by simp [Inference.refs]))
  | implElim p q =>
      exact .implElim (refs p (by simp [Inference.refs])) (refs q (by simp [Inference.refs]))
  | implIntro label q =>
      exact .implIntro (labels label (by simp [Inference.labels]))
        (refs q (by simp [Inference.refs]))
  | disjIntro p other side => exact .disjIntro (refs p (by simp [Inference.refs]))
  | disjElim r s l₁ t l₂ =>
      exact .disjElim (refs r (by simp [Inference.refs])) (refs s (by simp [Inference.refs]))
        (labels l₁ (by simp [Inference.labels])) (refs t (by simp [Inference.refs]))
        (labels l₂ (by simp [Inference.labels]))

/-- A script with other names and formulas, where the functions that change them give what
corresponds. -/
theorem Script.matches_map {s : Script Label Atom} {mapId : Text → Text}
    {mapLabel : Label → Label'} (ids : ∀ step ∈ s.steps, I step.id (mapId step.id))
    (refs : ∀ step ∈ s.steps, ∀ ref ∈ step.refs, I ref (mapId ref))
    (labels : ∀ label ∈ s.labels, τ.label label (mapLabel label)) :
    s.Matches τ I (s.map mapId mapLabel τ.formula) := by
  refine ⟨rfl, List.forall₂_map_right_iff.mpr (List.forall₂_same.mpr fun step mem => ?_)⟩
  refine ⟨ids step mem, Inference.matches_map (refs step mem) fun label used => labels label ?_⟩
  exact List.mem_flatMap.mpr ⟨step, mem, used⟩

/-! ### Validity -/

theorem validateFrom_of_matches (keeps : Ordered.KeepsKeys I) {index : Nat}
    {seen seen' : List Text} {steps : List (Step Label Atom)} {steps' : List (Step Label' Atom')}
    (same : List.Forall₂ (Step.Matches τ I) steps steps') (seenSame : List.Forall₂ I seen seen')
    (valid : validateFrom index seen steps = .ok ()) :
    validateFrom index seen' steps' = .ok () := by
  induction same generalizing index seen seen' with
  | nil => rfl
  | @cons step step' _ _ first _ ih =>
      obtain ⟨fresh, earlier, later⟩ := validateFrom_cons_eq_ok_iff.mp valid
      refine validateFrom_cons_eq_ok_iff.mpr ⟨?_, ?_, ih (.cons first.id seenSame) later⟩
      · exact mt (List.rel_mem keeps.biUnique first.id seenSame).mpr fresh
      · exact keeps.forall_mem first.inference.refs seenSame earlier

theorem Script.Matches.validate {s : Script Label Atom} {t : Script Label' Atom'}
    (same : s.Matches τ I t) (keeps : Ordered.KeepsKeys I) (valid : s.validate = .ok ()) :
    t.validate = .ok () := by
  have ordered := validateFrom_of_matches keeps same.steps .nil (s.validateFrom_of_validate valid)
  have nonempty : t.steps ≠ [] := by
    rintro empty
    have none : s.steps = [] := by simpa [empty] using same.steps
    exact s.steps_ne_nil_of_validate valid none
  simpa [Script.validate, nonempty] using ordered

/-! ### Runs -/

/-- Traces that correspond: both are complete and have corresponding proofs, or both stop at the
same step for the same sort of reason. -/
inductive Trace.Matches (τ : Translation Label Label' Atom Atom') (I : Text → Text → Prop) :
    Trace Label Atom → Trace Label' Atom' → Prop
  | completed {done done'} : List.Forall₂ (fun e e' => e.2.Matches τ e'.2) done done' →
      Matches τ I ⟨done, none⟩ ⟨done', none⟩
  | stopped {done done' step step' e e'} : step.Matches τ I step' → e.Alike e' →
      Matches τ I ⟨done, some (step, e)⟩ ⟨done', some (step', e')⟩
  | lax {done failure t'} : ¬τ.Faithful → Matches τ I ⟨done, some failure⟩ t'

/-- A replay stops at a step, or at the final check if there is none, with an error of a kind. -/
def Script.FailsAt [BEq Atom] [ReflBEq Atom] (s : Script Label Atom)
    (id? : Option Text) (rule kind : String) : Prop :=
  ∃ failure, s.replay = .ok (.error failure) ∧ failure.stepId? = id? ∧ failure.rule = rule ∧
    failure.error.kind = kind

inductive Failure.Matches (τ : Translation Label Label' Atom Atom') (I : Text → Text → Prop) :
    Failure Label Atom → Failure Label' Atom' → Prop
  | step {step step' e e'} : step.Matches τ I step' → e'.kind = e.kind →
      Matches τ I (.step step e) (.step step' e')
  | goal {e e'} : e'.kind = e.kind → Matches τ I (.goal e) (.goal e')

namespace Failure.Matches

variable {failure : Failure Label Atom} {failure' : Failure Label' Atom'}

theorem stepId? (same : failure.Matches τ I failure') :
    Option.Rel I failure.stepId? failure'.stepId? := by
  cases same with
  | step step _ => exact .some step.id
  | goal _ => exact .none

theorem rule (same : failure.Matches τ I failure') : failure'.rule = failure.rule := by
  cases same with
  | step step _ => exact step.inference.rule
  | goal _ => rfl

theorem kind (same : failure.Matches τ I failure') : failure'.error.kind = failure.error.kind := by
  cases same with
  | step _ kind => exact kind
  | goal kind => exact kind

end Failure.Matches

variable [BEq Atom] [LawfulBEq Atom] [BEq Atom'] [LawfulBEq Atom']

theorem Step.Matches.apply {step : Step Label Atom} {step' : Step Label' Atom'}
    (same : step.Matches τ I step') (keeps : Ordered.KeepsKeys I)
    {proofs : List (Text × Proof Label Atom)} {proofs' : List (Text × Proof Label' Atom')}
    (table : Ordered.Corresponds I (Proof.Matches τ) proofs proofs') :
    Follows τ.Faithful StepError.Alike (Proof.Matches τ)
      (step.apply fun ref => Ordered.find? ref proofs)
      (step'.apply fun ref => Ordered.find? ref proofs') := by
  unfold Step.apply
  apply Follows.bind (same.inference.resolve fun ref ref' related => ?_)
  · intro j j' inferences
    have results := inferences.apply
    generalize j.apply = x at results ⊢
    generalize j'.apply = y at results ⊢
    cases results with
    | ok proof => exact .ok proof
    | error kind => exact .error (.rule kind)
    | lax notFaithful => exact .lax notFaithful
  · have found := table.find? keeps related
    dsimp only
    generalize Ordered.find? ref proofs = x at found ⊢
    generalize Ordered.find? ref' proofs' = y at found ⊢
    cases found with
    | none => exact .error .unknownRef
    | some proof => exact .ok proof

/-- After every step that both scripts make, their proofs correspond. -/
theorem Trace.from_matches (keeps : Ordered.KeepsKeys I) {steps : List (Step Label Atom)}
    {steps' : List (Step Label' Atom')} (same : List.Forall₂ (Step.Matches τ I) steps steps')
    {proofs : List (Text × Proof Label Atom)} {proofs' : List (Text × Proof Label' Atom')}
    (table : Ordered.Corresponds I (Proof.Matches τ) proofs proofs') :
    (Trace.from proofs steps).Matches τ I (Trace.from proofs' steps') := by
  induction same generalizing proofs proofs' with
  | nil => exact .completed .nil
  | @cons step step' rest rest' first _ ih =>
      have results := first.apply keeps table
      rw [Trace.from, Trace.from]
      generalize (step.apply fun ref => Ordered.find? ref proofs) = x at results ⊢
      generalize (step'.apply fun ref => Ordered.find? ref proofs') = y at results ⊢
      cases results with
      | error alike => exact .stopped first alike
      | lax notFaithful => exact .lax notFaithful
      | @ok p p' proof =>
          have later := ih (table.put keeps first.id proof)
          dsimp only
          generalize Trace.from (Ordered.put step.id p proofs) rest = u at later ⊢
          generalize Trace.from (Ordered.put step'.id p' proofs') rest' = u' at later ⊢
          cases later with
          | completed done => exact .completed (.cons proof done)
          | stopped step alike => exact .stopped step alike
          | lax notFaithful => exact .lax notFaithful

omit [BEq Label] [BEq Label'] [BEq Atom] [LawfulBEq Atom] [BEq Atom'] [LawfulBEq Atom'] in
theorem rel_getLast? {A A' : Type} {R : A → A' → Prop} {items : List A} {items' : List A'}
    (same : List.Forall₂ R items items') : Option.Rel R items.getLast? items'.getLast? := by
  have reversed := List.rel_reverse same
  rw [← List.head?_reverse, ← List.head?_reverse]
  generalize items.reverse = back at reversed ⊢
  generalize items'.reverse = back' at reversed ⊢
  cases reversed with
  | nil => exact .none
  | cons last _ => exact .some last

/-- The verdicts on corresponding scripts correspond. -/
theorem Script.Matches.exists_verdicts {s : Script Label Atom} {t : Script Label' Atom'}
    (same : s.Matches τ I t) (keeps : Ordered.KeepsKeys I) (valid : s.validate = .ok ()) :
    ∃ verdict verdict', s.replay = .ok verdict ∧ t.replay = .ok verdict' ∧
      Follows τ.Faithful (Failure.Matches τ I) (Proof.Matches τ) verdict verdict' := by
  have valid' := same.validate keeps valid
  have traces : s.trace.Matches τ I t.trace := Trace.from_matches keeps same.steps .nil
  obtain ⟨verdict, replayed⟩ := Script.exists_verdict valid
  obtain ⟨verdict', replayed'⟩ := Script.exists_verdict valid'
  refine ⟨verdict, verdict', replayed, replayed', ?_⟩
  simp only [Script.replay, valid] at replayed
  simp only [Script.replay, valid'] at replayed'
  generalize s.trace = u at traces replayed
  generalize t.trace = u' at traces replayed'
  cases traces with
  | stopped step alike =>
      cases alike with
      | unknownRef => cases replayed
      | rule kind =>
          cases replayed
          cases replayed'
          exact .error (.step step kind)
  | @lax done failure _ notFaithful =>
      obtain ⟨step, ref | e⟩ := failure
      · cases replayed
      · cases replayed
        exact .lax notFaithful
  | @completed done done' proofs =>
      -- The last proofs correspond, and so do the results of the final check.
      have last := rel_getLast? proofs
      dsimp only at replayed replayed'
      generalize done.getLast? = x at last replayed
      generalize done'.getLast? = y at last replayed'
      cases last with
      | none => cases replayed
      | @some e e' proof =>
          obtain ⟨step, p⟩ := e
          obtain ⟨step', p'⟩ := e'
          have results := Proof.Matches.shows proof s.goal
          dsimp only at results replayed replayed'
          rw [same.goal] at replayed'
          generalize p.shows s.goal = x at results replayed
          generalize p'.shows (τ.formula s.goal) = y at results replayed'
          cases results with
          | ok shown =>
              cases replayed
              cases replayed'
              exact .ok shown
          | error kind =>
              cases replayed
              cases replayed'
              exact .error (.goal kind)
          | lax notFaithful =>
              cases replayed
              exact .lax notFaithful

/-- Where a replay yields a proof, that of a corresponding script yields the translated one. As the
proofs are closed, only their conclusions matter. -/
theorem Script.Matches.replay_eq_ok {s : Script Label Atom} {t : Script Label' Atom'}
    (same : s.Matches τ I t) (keeps : Ordered.KeepsKeys I) {p : Proof Label Atom}
    (replayed : s.replay = .ok (.ok p)) :
    t.replay = .ok (.ok ⟨τ.formula p.conclusion, .empty⟩) := by
  have valid := (Script.replay_eq_ok_iff.mp replayed).1
  obtain ⟨verdict, verdict', replayedAgain, replayed', follows⟩ := same.exists_verdicts keeps valid
  obtain rfl : .ok p = verdict := Except.ok.inj (replayed.symm.trans replayedAgain)
  obtain ⟨q, rfl, proofs⟩ := follows.exists_ok
  have noLabels := proofs.assumptions.size_eq
  rw [(Script.closed_of_replay replayed).1] at noLabels
  rw [replayed', ← proofs.conclusion, ← Assumptions.eq_empty_of_size noLabels]

omit [BEq Label] [BEq Label'] [BEq Atom] [LawfulBEq Atom] [BEq Atom'] [LawfulBEq Atom'] in
theorem biUnique_rel {A A' : Type} {R : A → A' → Prop} (unique : Relator.BiUnique R) :
    Relator.BiUnique (Option.Rel R) := by
  constructor
  · intro x y z left right
    cases left with
    | none => cases right; rfl
    | some hx =>
        cases right with
        | some hy => rw [unique.1 hx hy]
  · intro x y z left right
    cases left with
    | none => cases right; rfl
    | some hy =>
        cases right with
        | some hz => rw [unique.2 hy hz]

/-- If no rule can notice the translation, corresponding scripts fail at corresponding places. -/
theorem Script.Matches.failsAt_iff {s : Script Label Atom} {t : Script Label' Atom'}
    (same : s.Matches τ I t) (keeps : Ordered.KeepsKeys I) (faithful : τ.Faithful)
    (valid : s.validate = .ok ()) {id? id?' : Option Text} (place : Option.Rel I id? id?')
    (rule kind : String) : s.FailsAt id? rule kind ↔ t.FailsAt id?' rule kind := by
  obtain ⟨verdict, verdict', replayed, replayed', follows⟩ := same.exists_verdicts keeps valid
  constructor
  · rintro ⟨failure, failed, rfl, rfl, rfl⟩
    obtain rfl : verdict = .error failure := Except.ok.inj (replayed.symm.trans failed)
    obtain ⟨failure', rfl, failures⟩ := follows.exists_error faithful
    refine ⟨failure', replayed', ?_, failures.rule, failures.kind⟩
    exact (biUnique_rel keeps.biUnique).2 failures.stepId? place
  · rintro ⟨failure', failed, rfl, rfl, rfl⟩
    obtain rfl : verdict' = .error failure' := Except.ok.inj (replayed'.symm.trans failed)
    obtain ⟨failure, rfl, failures⟩ := follows.exists_of_error faithful
    refine ⟨failure, replayed, ?_, failures.rule.symm, failures.kind.symm⟩
    exact (biUnique_rel keeps.biUnique).1 failures.stepId? place

end

/-! ### New names -/

def Script.ids (s : Script Label Atom) : List Text := s.steps.map Step.id

/-- New names for labels, which differ where the labels do. -/
def Translation.ofRenaming [BEq Label] [LawfulBEq Label] [BEq Label'] [LawfulBEq Label']
    {rename : Label → Label'} {labels : Set Label} (injective : Set.InjOn rename labels) :
    Translation Label Label' Atom Atom where
  label l l' := l ∈ labels ∧ l' = rename l
  keepsLabels := Ordered.keepsKeys_of_injOn injective
  formula := id
  conj _ _ := rfl
  disj _ _ := rfl
  impl _ _ := rfl

theorem Translation.faithful_ofRenaming [BEq Label] [LawfulBEq Label] [BEq Label']
    [LawfulBEq Label'] {rename : Label → Label'} {labels : Set Label}
    (injective : Set.InjOn rename labels) :
    (ofRenaming injective : Translation Label Label' Atom Atom).Faithful :=
  ⟨fun a => ⟨a, rfl⟩, Function.injective_id⟩

/-- Every reference of a valid script is to one of its steps. -/
theorem mem_of_validateFrom {index : Nat} {seen : List Text} {steps : List (Step Label Atom)}
    (valid : validateFrom index seen steps = .ok ()) {step : Step Label Atom} (mem : step ∈ steps)
    {ref : Text} (used : ref ∈ step.refs) : ref ∈ seen ∨ ref ∈ steps.map Step.id := by
  induction steps generalizing index seen with
  | nil => cases mem
  | cons head rest ih =>
      obtain ⟨-, earlier, later⟩ := validateFrom_cons_eq_ok_iff.mp valid
      rcases List.mem_cons.mp mem with rfl | mem
      · exact .inl (earlier ref used)
      · rcases ih later mem with before | after
        · rcases List.mem_cons.mp before with rfl | before
          · exact .inr List.mem_cons_self
          · exact .inl before
        · exact .inr (List.mem_cons_of_mem _ after)

section

variable [BEq Label] [LawfulBEq Label] {s : Script Label Atom} {newLabel : Label → Label}
  {newId : Text → Text}

theorem Script.matches_rename (valid : s.validate = .ok ())
    (labels : Set.InjOn newLabel {label | label ∈ s.labels}) :
    s.Matches (.ofRenaming labels) (fun id id' => id ∈ {id | id ∈ s.ids} ∧ id' = newId id)
      (s.map newId newLabel id) := by
  apply Script.matches_map
  · exact fun step mem => ⟨List.mem_map_of_mem mem, rfl⟩
  · intro step mem ref used
    have listed := mem_of_validateFrom (s.validateFrom_of_validate valid) mem used
    exact ⟨listed.resolve_left List.not_mem_nil, rfl⟩
  · exact fun label used => ⟨used, rfl⟩

variable [BEq Atom] [LawfulBEq Atom]

/-- Names do not matter to a replay. If labels and steps get new names that differ where the old
ones do, then the same proof is found, or the replay fails at the same step, by the same rule and
with an error of the same kind. -/
theorem Script.replay_renamed (valid : s.validate = .ok ())
    (labels : Set.InjOn newLabel {label | label ∈ s.labels})
    (ids : Set.InjOn newId {id | id ∈ s.ids}) :
    (∀ p, (s.map newId newLabel id).replay = .ok (.ok p) ↔ s.replay = .ok (.ok p)) ∧
    (∀ step ∈ s.steps, ∀ rule kind, s.FailsAt (some step.id) rule kind ↔
      (s.map newId newLabel id).FailsAt (some (newId step.id)) rule kind) ∧
    ∀ rule kind, s.FailsAt none rule kind ↔
      (s.map newId newLabel id).FailsAt none rule kind := by
  have same : s.Matches (.ofRenaming labels)
      (fun id id' => id ∈ {id | id ∈ s.ids} ∧ id' = newId id) (s.map newId newLabel id) :=
    Script.matches_rename valid labels
  have keeps := Ordered.keepsKeys_of_injOn ids
  have faithful : (Translation.ofRenaming labels : Translation Label Label Atom Atom).Faithful :=
    Translation.faithful_ofRenaming labels
  have kept : ∀ p, s.replay = .ok (.ok p) → (s.map newId newLabel id).replay = .ok (.ok p) := by
    intro p proved
    have closed := (Script.closed_of_replay proved).1
    rw [same.replay_eq_ok keeps proved, ← closed]
    rfl
  refine ⟨fun p => ⟨fun proved => ?_, kept p⟩, fun step mem => ?_, ?_⟩
  · obtain ⟨verdict, verdict', replayed, replayed', follows⟩ := same.exists_verdicts keeps valid
    obtain rfl : verdict' = .ok p := Except.ok.inj (replayed'.symm.trans proved)
    obtain ⟨q, rfl, -⟩ := follows.exists_of_ok faithful
    obtain rfl : q = p := by simpa [kept q replayed] using proved
    exact replayed
  · exact same.failsAt_iff keeps faithful valid (.some ⟨List.mem_map_of_mem mem, rfl⟩)
  · exact same.failsAt_iff keeps faithful valid .none

end

/-- A pair of two hypotheses, which are discharged again. The second one has the given label. -/
def pairUnder (second : Deduction.Label) : Script Deduction.Label String where
  name := "pair"
  goal := .impl (.var "p") (.impl (.var "q") (.conj (.var "p") (.var "q")))
  steps := [⟨"left", .suppose (.var "p") (.number 1)⟩, ⟨"right", .suppose (.var "q") second⟩,
    ⟨"pair", .conjIntro "left" "right"⟩, ⟨"inner", .implIntro second "pair"⟩,
    ⟨"outer", .implIntro (.number 1) "inner"⟩]

/-- The labels are exchanged and the steps get new names. With one label for both hypotheses there
is no pair of them, under the new names either. -/
theorem pairUnder_renamed :
    ((pairUnder (.name "x")).map (.plain "new " ++ ·)
        (Equiv.swap (.number 1) (.name "x")) id).replay =
        .ok (.ok ⟨(pairUnder (.name "x")).goal, .empty⟩) ∧
      ((pairUnder (.number 1)).map (.plain "new " ++ ·)
        (Equiv.swap (.number 1) (.name "x")) id).FailsAt
        (some "new pair") "conj_intro" "InconsistentLabel" := by
  have labels : Function.Injective (Equiv.swap (Deduction.Label.number 1) (.name "x")) :=
    Equiv.injective _
  have ids : Function.Injective (Text.plain "new " ++ ·) := fun a b => (Text.append_right_inj _).mp
  constructor
  · have renamed := Script.replay_renamed (s := pairUnder (.name "x")) (by decide +kernel)
      labels.injOn ids.injOn
    exact (renamed.1 _).mpr rfl
  · have renamed := Script.replay_renamed (s := pairUnder (.number 1)) (by decide +kernel)
      labels.injOn ids.injOn
    refine (renamed.2.1 ⟨"pair", .conjIntro "left" "right"⟩ (by decide +kernel) _ _).mp ?_
    exact ⟨_, rfl, rfl, rfl, rfl⟩

/-! ### Substitution -/

section

variable [BEq Label] (σ : Atom → Formula Atom')

/-- The same labels, bound to formulas in which others stand for the variables. -/
def Assumptions.bind (a : Assumptions Label Atom) : Assumptions Label Atom' where
  entries := a.entries.map fun entry => (entry.1, entry.2.bind σ)
  distinct := by
    rw [Ordered.Distinct, List.pairwise_map]
    exact a.distinct

def Proof.bind (p : Proof Label Atom) : Proof Label Atom' :=
  ⟨p.conclusion.bind σ, p.assumptions.bind σ⟩

def Translation.ofSubstitution : Translation Label Label Atom Atom' where
  label := Eq
  keepsLabels := Ordered.keepsKeys_eq
  formula := Formula.bind σ
  conj _ _ := rfl
  disj _ _ := rfl
  impl _ _ := rfl

theorem Proof.matches_bind (p : Proof Label Atom) :
    p.Matches (.ofSubstitution σ) (p.bind σ) := by
  refine ⟨rfl, ?_⟩
  exact List.forall₂_map_right_iff.mpr (List.forall₂_same.mpr fun entry _ => ⟨rfl, rfl⟩)

variable {σ}

theorem Proof.eq_bind_of_matches {p : Proof Label Atom} {q : Proof Label Atom'}
    (same : p.Matches (.ofSubstitution σ) q) : q = p.bind σ := by
  obtain ⟨conclusion, assumptions⟩ := same
  obtain ⟨c, entries, distinct⟩ := q
  have listed : entries = (p.assumptions.bind σ).entries := by
    symm
    rw [← List.forall₂_eq_eq_eq]
    refine List.forall₂_map_left_iff.mpr (List.Forall₂.imp ?_ assumptions)
    rintro ⟨label, f⟩ ⟨label', f'⟩ ⟨rfl, rfl⟩
    rfl
  subst listed conclusion
  rfl

/-- A derivation is a schema. Whatever formulas are put in the place of its variables, a script that
proves its goal proves the goal with these formulas in it; and every rule that applies to proofs
applies to them after the substitution, with the same labels and the substituted result. -/
theorem Script.replay_substituted [BEq Atom] [LawfulBEq Atom] [BEq Atom'] [LawfulBEq Atom']
    (σ : Atom → Formula Atom') :
    (∀ (s : Script Label Atom) p, s.replay = .ok (.ok p) →
      (s.map id id (Formula.bind σ)).validate = .ok () ∧
        (s.map id id (Formula.bind σ)).replay = .ok (.ok ⟨p.conclusion.bind σ, .empty⟩)) ∧
    (∀ (i : Inference (Proof Label Atom) Label Atom) p, i.apply = .ok p →
      (i.map (Proof.bind σ) id (Formula.bind σ)).apply = .ok (p.bind σ)) ∧
    ∀ (p q : Proof Label Atom) f, p.shows f = .ok q →
      (p.bind σ).shows (f.bind σ) = .ok (q.bind σ) := by
  refine ⟨?_, ?_, ?_⟩
  · intro s p replayed
    have same : s.Matches (.ofSubstitution σ) Eq (s.map id id (Formula.bind σ)) :=
      Script.matches_map (fun _ _ => rfl) (fun _ _ _ _ => rfl) fun _ _ => rfl
    have valid := (Script.replay_eq_ok_iff.mp replayed).1
    exact ⟨same.validate Ordered.keepsKeys_eq valid,
      same.replay_eq_ok Ordered.keepsKeys_eq replayed⟩
  · intro i p applied
    have same : i.Matches (.ofSubstitution σ) (Proof.Matches (.ofSubstitution σ))
        (i.map (Proof.bind σ) id (Formula.bind σ)) :=
      Inference.matches_map (fun q _ => q.matches_bind σ) fun _ _ => rfl
    have results := same.apply
    rw [applied] at results
    obtain ⟨q, applied', proofs⟩ := results.exists_ok
    rw [applied', Proof.eq_bind_of_matches proofs]
  · intro p q f shown
    have results := (p.matches_bind σ).shows f
    rw [shown] at results
    obtain ⟨q', shown', proofs⟩ := results.exists_ok
    rw [← Proof.eq_bind_of_matches proofs]
    exact shown'

end

/-- One formula in the place of every variable. -/
def unify (_ : String) : Formula String := .impl (.var "a") (.disj (.var "b") (.var "a"))

/-- The hypotheses of a pair keep their own labels when they become the same formula. -/
theorem pairUnder_substituted :
    ((pairUnder (.name "x")).map id id (Formula.bind unify)).replay =
        .ok (.ok ⟨.impl (unify "p") (.impl (unify "q") (.conj (unify "p") (unify "q"))), .empty⟩) ∧
      (Inference.conjElim ((Proof.suppose (.conj (.var "p") (.var "q"))
        (Deduction.Label.number 1)).bind unify) .left).apply =
          .ok ⟨unify "p", .ofList [(.number 1, .conj (unify "p") (unify "q"))]⟩ := by
  constructor
  · exact ((Script.replay_substituted unify).1 (pairUnder (.name "x")) _ rfl).2
  · exact (Script.replay_substituted unify).2.1 (.conjElim (Proof.suppose
      (.conj (.var "p") (.var "q")) (Deduction.Label.number 1)) .left) _ rfl

end Deduction
