import Mathlib.Data.Fintype.EquivFin
import Deduction.Formula.Token
import Deduction.Proofs.Completeness
import Deduction.Proofs.Replay
import Deduction.Proofs.Soundness

/-!
Scripts prove exactly what is derivable.

A tree is written down as a script from its leaves to its root, one step for every node. Each step
gets an id that no earlier step has, so that the proofs of earlier steps stay what they are.
-/

namespace Deduction

/-- There is always another id. -/
instance : Infinite Text := Infinite.of_injective Text.plain fun _ _ => Text.plain.inj

section

variable {Label Atom : Type}

namespace Inference

variable {Ref Ref' Error : Type}

theorem exists_find_of_resolve {find : Ref → Except Error Ref'} {i : Inference Ref Label Atom}
    {j : Inference Ref' Label Atom} (resolved : i.resolve find = .ok j) :
    ∀ ref ∈ i.refs, ∃ found, find ref = .ok found := by
  cases i <;>
    simp only [Inference.resolve, bind_eq_ok_iff, pure_eq_ok_iff] at resolved <;>
    grind [Inference.refs]

theorem exists_resolve {find : Ref → Except Error Ref'} {j : Inference Ref' Label Atom}
    (named : ∀ found ∈ j.refs, ∃ ref, find ref = .ok found) :
    ∃ i : Inference Ref Label Atom, i.resolve find = .ok j ∧ i.formulas = j.formulas ∧
      i.labels = j.labels := by
  cases j with
  | suppose f label => exact ⟨.suppose f label, rfl, rfl, rfl⟩
  | conjIntro left right =>
      obtain ⟨l, hl⟩ := named left (by simp [refs])
      obtain ⟨r, hr⟩ := named right (by simp [refs])
      exact ⟨.conjIntro l r, by simp [resolve, hl, hr], rfl, rfl⟩
  | conjElim proof side =>
      obtain ⟨r, hr⟩ := named proof (by simp [refs])
      exact ⟨.conjElim r side, by simp [resolve, hr], rfl, rfl⟩
  | implElim premise implication =>
      obtain ⟨p, hp⟩ := named premise (by simp [refs])
      obtain ⟨q, hq⟩ := named implication (by simp [refs])
      exact ⟨.implElim p q, by simp [resolve, hp, hq], rfl, rfl⟩
  | implIntro label proof =>
      obtain ⟨r, hr⟩ := named proof (by simp [refs])
      exact ⟨.implIntro label r, by simp [resolve, hr], rfl, rfl⟩
  | disjIntro proof other side =>
      obtain ⟨r, hr⟩ := named proof (by simp [refs])
      exact ⟨.disjIntro r other side, by simp [resolve, hr], rfl, rfl⟩
  | disjElim disjunction leftCase leftLabel rightCase rightLabel =>
      obtain ⟨r, hr⟩ := named disjunction (by simp [refs])
      obtain ⟨s, hs⟩ := named leftCase (by simp [refs])
      obtain ⟨t, ht⟩ := named rightCase (by simp [refs])
      exact ⟨.disjElim r s leftLabel t rightLabel, by simp [resolve, hr, hs, ht], rfl, rfl⟩

/-- All formulas that the inference brings in are among some, and all its labels are. -/
def Within (formula : Formula Atom → Prop) (allowed : Label → Prop) (i : Inference Ref Label Atom) :
    Prop :=
  (∀ f ∈ i.formulas, formula f) ∧ ∀ label ∈ i.labels, allowed label

end Inference

variable [BEq Label] [BEq Atom] [LawfulBEq Atom]

/-! ### Writing steps down -/

/-- The beginning of a script, with the proofs that it yields. -/
structure Progress (steps : List (Step Label Atom)) (proofs : List (Text × Proof Label Atom)) :
    Prop where
  valid : validateFrom 0 [] steps = .ok ()
  runs : Runs [] steps proofs

def Extends (proofs later : List (Text × Proof Label Atom)) : Prop :=
  ∀ ref p, Ordered.find? ref proofs = some p → Ordered.find? ref later = some p

theorem Runs.mem_ids {proofs later : List (Text × Proof Label Atom)}
    {steps : List (Step Label Atom)} (runs : Runs proofs steps later) {ref : Text}
    {p : Proof Label Atom} (found : Ordered.find? ref later = some p) :
    ref ∈ steps.map Step.id ∨ ∃ q, Ordered.find? ref proofs = some q := by
  induction runs with
  | nil => exact .inr ⟨p, found⟩
  | @cons proofs step rest q later _ _ ih =>
      rcases ih found with listed | ⟨q, known⟩
      · exact .inl (List.mem_cons_of_mem _ listed)
      · rw [Ordered.find?_put] at known
        by_cases same : step.id = ref
        · exact .inl (by simp [same])
        · exact .inr ⟨q, by simpa [same] using known⟩

theorem Progress.mem_ids {steps : List (Step Label Atom)}
    {proofs : List (Text × Proof Label Atom)} (progress : Progress steps proofs) {ref : Text}
    {p : Proof Label Atom} (found : Ordered.find? ref proofs = some p) :
    ref ∈ steps.map Step.id := by
  rcases progress.runs.mem_ids found with listed | ⟨q, known⟩
  · exact listed
  · simp [Ordered.find?] at known

theorem Progress.extend {steps : List (Step Label Atom)} {proofs : List (Text × Proof Label Atom)}
    (progress : Progress steps proofs) {i : Inference Text Label Atom}
    {j : Inference (Proof Label Atom) Label Atom} {p : Proof Label Atom}
    (resolved : i.resolve (lookUp proofs) = .ok j) (applied : j.apply = .ok p) :
    ∃ id, Progress (steps ++ [⟨id, i⟩]) (Ordered.put id p proofs) ∧
      Extends proofs (Ordered.put id p proofs) := by
  obtain ⟨id, fresh⟩ := Infinite.exists_notMem_finset (steps.map Step.id).toFinset
  have absent : id ∉ steps.map Step.id := by simpa using fresh
  have earlier : ∀ ref ∈ i.refs, ref ∈ steps.map Step.id := by
    intro ref mem
    obtain ⟨q, found⟩ := Inference.exists_find_of_resolve resolved ref mem
    exact progress.mem_ids (lookUp_eq_ok_iff.mp found)
  refine ⟨id, ⟨?_, ?_⟩, ?_⟩
  · refine validateFrom_append_eq_ok_iff.mpr ⟨progress.valid, ?_, ?_⟩
    · simpa using absent
    · simpa [Step.refs] using earlier
  · exact progress.runs.append (.cons (Step.apply_eq_ok_iff.mpr ⟨j, resolved, applied⟩) .nil)
  · intro ref q found
    have apart : id ≠ ref := by
      rintro rfl
      exact absent (progress.mem_ids found)
    simpa [Ordered.find?_put, apart] using found

/-- A script that has begun can be continued, by steps with allowed formulas and labels only, to a
step that yields the proof. -/
def Writable (formula : Formula Atom → Prop) (allowed : Label → Prop) (p : Proof Label Atom) :
    Prop :=
  ∀ steps proofs, Progress steps proofs → ∃ more last later, Progress (steps ++ more) later ∧
    Extends proofs later ∧ (∀ step ∈ more, step.inference.Within formula allowed) ∧
    more.getLast? = some last ∧ Ordered.find? last.id later = some p

variable {formula : Formula Atom → Prop} {allowed : Label → Prop}

theorem exists_steps_of_writable {premises : List (Proof Label Atom)}
    (writable : ∀ p ∈ premises, Writable formula allowed p) {steps : List (Step Label Atom)}
    {proofs : List (Text × Proof Label Atom)} (progress : Progress steps proofs) :
    ∃ more later, Progress (steps ++ more) later ∧ Extends proofs later ∧
      (∀ step ∈ more, step.inference.Within formula allowed) ∧
      ∀ p ∈ premises, ∃ ref, lookUp later ref = .ok p := by
  induction premises generalizing steps proofs with
  | nil => exact ⟨[], proofs, by simpa using progress, fun _ _ found => found, by simp, by simp⟩
  | cons p rest ih =>
      obtain ⟨first, last, middle, progress, kept, used, -, found⟩ :=
        writable p List.mem_cons_self steps proofs progress
      obtain ⟨more, later, progress, keptOn, usedOn, named⟩ :=
        ih (fun q mem => writable q (List.mem_cons_of_mem _ mem)) progress
      refine ⟨first ++ more, later, by simpa using progress, ?_, ?_, ?_⟩
      · intro ref q known
        exact keptOn ref q (kept ref q known)
      · intro step mem
        rcases List.mem_append.mp mem with old | new
        · exact used step old
        · exact usedOn step new
      · intro q mem
        rcases List.mem_cons.mp mem with rfl | mem
        · exact ⟨last.id, lookUp_eq_ok_iff.mpr (keptOn _ _ found)⟩
        · exact named q mem

/-- One step writes an inference from proofs that can be written. -/
theorem Writable.infer {j : Inference (Proof Label Atom) Label Atom} {p : Proof Label Atom}
    (premises : ∀ q ∈ j.refs, Writable formula allowed q) (within : j.Within formula allowed)
    (applied : j.apply = .ok p) : Writable formula allowed p := by
  intro steps proofs progress
  obtain ⟨more, later, progress, kept, used, named⟩ := exists_steps_of_writable premises progress
  obtain ⟨i, resolved, formulas, labels⟩ := Inference.exists_resolve named
  obtain ⟨id, progress, keptOn⟩ := progress.extend resolved applied
  refine ⟨more ++ [⟨id, i⟩], ⟨id, i⟩, _, by simpa using progress, ?_, ?_, by simp,
    by simp [Ordered.find?_put]⟩
  · intro ref q found
    exact keptOn ref q (kept ref q found)
  · intro step mem
    rcases List.mem_append.mp mem with old | new
    · exact used step old
    · obtain rfl := List.mem_singleton.mp new
      simpa [Inference.Within, formulas, labels] using within

theorem Tree.Yields.writable {tree : Tree Label Atom} {p : Proof Label Atom}
    (yields : tree.Yields p) (within : tree.Within formula allowed) :
    Writable formula allowed p := by
  induction yields with
  | @suppose f label =>
      obtain ⟨hf, hl⟩ := within
      refine .infer (j := .suppose f label) ?_ ?_ rfl
      · simp [Inference.refs]
      · simp [Inference.Within, Inference.formulas, Inference.labels, hf, hl]
  | @conjIntro _ _ p q _ _ _ applied ihl ihr =>
      obtain ⟨hl, hr⟩ := within
      refine .infer (j := .conjIntro p q) ?_ ?_ applied
      · simp [Inference.refs, ihl hl, ihr hr]
      · simp [Inference.Within, Inference.formulas, Inference.labels]
  | @conjElim _ side p _ _ applied ih =>
      refine .infer (j := .conjElim p side) ?_ ?_ applied
      · simp [Inference.refs, ih within]
      · simp [Inference.Within, Inference.formulas, Inference.labels]
  | @disjIntro _ other side p _ ih =>
      obtain ⟨h, ho⟩ := within
      refine .infer (j := .disjIntro p other side) ?_ ?_ rfl
      · simp [Inference.refs, ih h]
      · simp [Inference.Within, Inference.formulas, Inference.labels, ho]
  | @implElim _ _ p q _ _ _ applied ihp ihq =>
      obtain ⟨hp, hq⟩ := within
      refine .infer (j := .implElim p q) ?_ ?_ applied
      · simp [Inference.refs, ihp hp, ihq hq]
      · simp [Inference.Within, Inference.formulas, Inference.labels]
  | @implIntro label _ q _ _ applied ih =>
      obtain ⟨hl, h⟩ := within
      refine .infer (j := .implIntro label q) ?_ ?_ applied
      · simp [Inference.refs, ih h]
      · simp [Inference.Within, Inference.formulas, Inference.labels, hl]
  | @disjElim _ _ leftLabel _ rightLabel r s t _ _ _ _ applied ihr ihs iht =>
      obtain ⟨hr, hs, hl, ht, hl'⟩ := within
      refine .infer (j := .disjElim r s leftLabel t rightLabel) ?_ ?_ applied
      · simp [Inference.refs, ihr hr, ihs hs, iht ht]
      · simp [Inference.Within, Inference.formulas, Inference.labels, hl, hl']

theorem Tree.Yields.exists_script {tree : Tree Label Atom} {p : Proof Label Atom}
    (yields : tree.Yields p) (within : tree.Within formula allowed) {goal : Formula Atom}
    (hasGoal : formula goal) (shown : p.shows goal = .ok p) :
    ∃ s : Script Label Atom, s.goal = goal ∧ s.validate = .ok () ∧
      (∀ label ∈ s.labels, allowed label) ∧ (∀ f ∈ s.formulas, formula f) ∧
      s.replay = .ok (.ok p) := by
  obtain ⟨steps, last, proofs, ⟨valid, runs⟩, -, used, isLast, found⟩ :=
    yields.writable within [] [] ⟨rfl, .nil⟩
  simp only [List.nil_append] at valid runs
  have validated : (Script.mk "" goal steps).validate = .ok () := by
    cases steps with
    | nil => simp at isLast
    | cons step rest => exact valid
  refine ⟨⟨"", goal, steps⟩, rfl, validated, ?_, ?_, ?_⟩
  · intro label mem
    obtain ⟨step, listed, mem⟩ := List.mem_flatMap.mp mem
    exact (used step listed).2 label mem
  · intro f mem
    rcases List.mem_cons.mp mem with rfl | mem
    · exact hasGoal
    · obtain ⟨step, listed, mem⟩ := List.mem_flatMap.mp mem
      exact (used step listed).1 f mem
  · exact Script.replay_eq_ok_iff.mpr ⟨validated, proofs, last, runs, isLast, found, shown⟩

theorem Script.derivable_of_replay [LawfulBEq Label] {s : Script Label Atom} {p : Proof Label Atom}
    (replayed : s.replay = .ok (.ok p)) : Derivable [] s.goal := by
  obtain ⟨-, proofs, last, runs, -, found, shown⟩ := Script.replay_eq_ok_iff.mp replayed
  obtain ⟨tree, yields⟩ := runs.exists_tree (by simp [Ordered.find?]) last.id p found
  exact yields.derivable_of_shows shown

end

/-! ### Renaming to identifiers -/

namespace Formula

variable {Atom Other : Type}

theorem occurrences_map (rename : Atom → Other) (f : Formula Atom) :
    (f.map rename).occurrences = f.occurrences.map rename := by
  induction f with
  | var name => rfl
  | conj lhs rhs ihl ihr => simpa [map, bind, occurrences] using congrArg₂ (· ++ ·) ihl ihr
  | disj lhs rhs ihl ihr => simpa [map, bind, occurrences] using congrArg₂ (· ++ ·) ihl ihr
  | impl lhs rhs ihl ihr => simpa [map, bind, occurrences] using congrArg₂ (· ++ ·) ihl ihr

theorem map_eq_self {rename : Atom → Atom} {f : Formula Atom}
    (fixed : ∀ name ∈ f.occurrences, rename name = name) : f.map rename = f := by
  induction f with
  | var name => simpa [map, bind, occurrences] using fixed
  | conj lhs rhs ihl ihr =>
      exact congrArg₂ Formula.conj (ihl fun name mem => fixed name (List.mem_append_left _ mem))
        (ihr fun name mem => fixed name (List.mem_append_right _ mem))
  | disj lhs rhs ihl ihr =>
      exact congrArg₂ Formula.disj (ihl fun name mem => fixed name (List.mem_append_left _ mem))
        (ihr fun name mem => fixed name (List.mem_append_right _ mem))
  | impl lhs rhs ihl ihr =>
      exact congrArg₂ Formula.impl (ihl fun name mem => fixed name (List.mem_append_left _ mem))
        (ihr fun name mem => fixed name (List.mem_append_right _ mem))

/-- A name that can be written, the same if possible. -/
def toIdentifier (name : String) : String := if isIdentifier name then name else "p"

theorem isIdentifier_toIdentifier (name : String) : isIdentifier (toIdentifier name) = true := by
  unfold toIdentifier
  split
  · assumption
  · decide

end Formula

instance : Infinite Label :=
  Infinite.of_injective Label.number fun _ _ eq => Label.number.inj eq

instance : Infinite ScopedLabel :=
  Infinite.of_injective ScopedLabel.fresh fun _ _ eq => ScopedLabel.fresh.inj eq

/-! ### Exactness -/

theorem derivable_iff_exists_tree {Label Atom : Type} [BEq Label] [LawfulBEq Label]
    [Infinite Label] [BEq Atom] [LawfulBEq Atom] (a : Assumptions Label Atom) (f : Formula Atom) :
    Derivable a.formulas f ↔
      ∃ (tree : Tree Label Atom) (p : Proof Label Atom), tree.check = .ok p ∧ p.conclusion = f ∧
        ∀ label, p.assumptions.get? label = a.get? label := by
  constructor
  · intro derivable
    have same : ∀ g : Formula Atom, g.map id = g := fun g => Formula.map_eq_self fun _ _ => rfl
    have covers : Covers id a a.formulas := by
      intro g mem
      simpa [same] using Assumptions.mem_formulas.mp mem
    obtain ⟨tree, ⟨p, yields, conclusion, assumptions⟩, -⟩ :=
      derivable.exists_tree (fun _ => True) Set.infinite_univ (by simp) covers (by simp)
    exact ⟨tree, p, yields.check, conclusion.trans (same f), assumptions⟩
  · rintro ⟨tree, p, checked, rfl, assumptions⟩
    refine (Tree.check_eq_ok_iff.mp checked).derivable.mono fun g mem => ?_
    obtain ⟨label, bound⟩ := Assumptions.mem_formulas.mp mem
    exact Assumptions.mem_formulas.mpr ⟨label, (assumptions label).symm.trans bound⟩

theorem exists_script_of_derivable {goal : Formula String}
    (names : ∀ name ∈ goal.occurrences, Formula.isIdentifier name = true)
    (derivable : Derivable [] goal) :
    ∃ s : Script Label String, s.goal = goal ∧ s.validate = .ok () ∧
      (∀ label ∈ s.labels, ∃ n, label = .number n) ∧
      (∀ f ∈ s.formulas, ∀ name ∈ f.occurrences, Formula.isIdentifier name = true) ∧
      ∃ p, s.replay = .ok (.ok p) := by
  let hasNames (f : Formula String) : Prop :=
    ∀ name ∈ f.occurrences, Formula.isIdentifier name = true
  have image : ∀ f : Formula String, hasNames (f.map Formula.toIdentifier) := by
    intro f name mem
    rw [Formula.occurrences_map] at mem
    obtain ⟨old, -, rfl⟩ := List.mem_map.mp mem
    exact Formula.isIdentifier_toIdentifier old
  have same : goal.map Formula.toIdentifier = goal :=
    Formula.map_eq_self fun name mem => by simp [Formula.toIdentifier, names name mem]
  have supply : (Set.range Label.number).Infinite :=
    Set.infinite_range_of_injective fun _ _ eq => Label.number.inj eq
  have covers : Covers Formula.toIdentifier (.empty : Assumptions Label String) [] := by
    intro f mem
    simp at mem
  obtain ⟨tree, ⟨p, yields, conclusion, assumptions⟩, within⟩ :=
    derivable.exists_tree hasNames supply image covers (by simp)
  have shown : p.shows goal = .ok p :=
    Proof.shows_eq_ok_iff.mpr
      ⟨Assumptions.eq_empty_of_equiv assumptions, conclusion.trans same, rfl⟩
  obtain ⟨s, hasGoal, valid, labels, formulas, replayed⟩ := yields.exists_script within names shown
  refine ⟨s, hasGoal, valid, fun label mem => ?_, formulas, p, replayed⟩
  obtain ⟨n, rfl⟩ := labels label mem
  exact ⟨n, rfl⟩

/-- A formula is the goal of some script that replays if and only if it is derivable. The steps of
the script can be chosen with numbers as labels and with identifiers as names. More generally, what
is derivable from a context has a proof with exactly that context as its assumptions. -/
theorem exists_script_iff_derivable {goal : Formula String}
    (names : ∀ name ∈ goal.occurrences, Formula.isIdentifier name = true) :
    ((∃ s : Script Label String, s.goal = goal ∧ s.validate = .ok () ∧
          (∀ label ∈ s.labels, ∃ n, label = .number n) ∧
          (∀ f ∈ s.formulas, ∀ name ∈ f.occurrences, Formula.isIdentifier name = true) ∧
          ∃ p, s.replay = .ok (.ok p)) ↔
        Derivable [] goal) ∧
      (∀ (s : Script Label String) (p : Proof Label String), s.goal = goal →
        s.replay = .ok (.ok p) → Derivable [] goal) ∧
      ∀ {L A : Type} [BEq L] [LawfulBEq L] [Infinite L] [BEq A] [LawfulBEq A]
        (a : Assumptions L A) (f : Formula A),
        Derivable a.formulas f ↔
          ∃ (tree : Tree L A) (p : Proof L A), tree.check = .ok p ∧ p.conclusion = f ∧
            ∀ label, p.assumptions.get? label = a.get? label := by
  refine ⟨⟨?_, exists_script_of_derivable names⟩, ?_, derivable_iff_exists_tree⟩
  · rintro ⟨s, rfl, -, -, -, p, replayed⟩
    exact s.derivable_of_replay replayed
  · rintro s p rfl replayed
    exact s.derivable_of_replay replayed

/-- What is derived here uses `q` in no step, and has a discharge of it all the same. -/
theorem weakening_has_script :
    (∃ s : Script Label String,
        s.goal = .impl (.var "p") (.impl (.var "q") (.var "p")) ∧ s.validate = .ok () ∧
          (∀ label ∈ s.labels, ∃ n, label = .number n) ∧
          (∀ f ∈ s.formulas, ∀ name ∈ f.occurrences, Formula.isIdentifier name = true) ∧
          ∃ p, s.replay = .ok (.ok p)) ∧
      ∃ (tree : Tree ScopedLabel String) (p : Proof ScopedLabel String), tree.check = .ok p ∧
        p.conclusion = .impl (.var "q") (.var "p") ∧
        ∀ label, p.assumptions.get? label =
          (Assumptions.single (ScopedLabel.fresh 1) (.var "p" : Formula String)).get? label := by
  have names : ∀ name ∈
      (Formula.impl (.var "p") (.impl (.var "q") (.var "p")) : Formula String).occurrences,
      Formula.isIdentifier name = true := by decide
  have both := exists_script_iff_derivable names
  refine ⟨both.1.mpr (.implIntro (.implIntro (.hypothesis (by simp)))), ?_⟩
  refine (both.2.2 _ _).mp (.implIntro (.hypothesis ?_))
  simp [Assumptions.formulas, Assumptions.single]

end Deduction
