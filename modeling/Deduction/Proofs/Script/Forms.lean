import Deduction.Proofs.Script.Storage

/-!
The two forms of formulas in scripts.

Wherever a script holds a formula, a text in infix form and an object can stand for each other.
Texts and objects denote the same formulas, as far as these are not nested too deeply.
-/

namespace Deduction

/-! ### Formulas -/

namespace Formula

theorem exists_text_iff {limit : Nat} {f : Formula String} (low : f.height ≤ limit) :
    (∃ text, parseWithin limit text = .ok f) ↔
      ∀ name ∈ f.occurrences, isIdentifier name = true := by
  constructor
  · rintro ⟨text, read⟩
    exact isIdentifier_of_parseAny (parseAny_of_parseWithin read)
  · intro named
    exact ⟨_, (lexes_render (legible_select true) named).parseWithin low⟩

theorem exists_object_iff {room : Nat} {f : Formula String} (low : f.height < room) :
    (∃ fields, ofJsonWithin room (.obj fields) = .ok f) ↔
      ∀ name ∈ f.occurrences, isIdentifier name = true := by
  constructor
  · rintro ⟨fields, decoded⟩
    exact (ofJsonWithin_eq_ok_iff.mp decoded).1.isIdentifier
  · intro named
    have decoded := (encoded_toJson named).ofJsonWithin low
    cases f with
    | var _ | conj _ _ | disj _ _ | impl _ _ => exact ⟨_, decoded⟩

/-- The formula that a value stands for, in its other form: an object for a text, and a text in one
of the symbol sets for an object. -/
def otherForm [Limits] (ascii : Bool) : Json → Json
  | .str text =>
      match parseText text with
      | .ok f => f.toJson
      | .error _ => .str text
  | .obj fields =>
      match ofJson (.obj fields) with
      | .ok f => .str (.plain (f.render (.select ascii)))
      | .error _ => .obj fields
  | value => value

theorem Given.otherForm [Limits] {f : Formula String} {value : Json} (given : f.Given value)
    (low : f.height ≤ min Limits.parsing Limits.decoding) (ascii : Bool) :
    f.Given (otherForm ascii value) := by
  have named := given.isIdentifier
  obtain ⟨parsed, decodes⟩ := Nat.le_min.mp low
  cases given with
  | text read =>
      simp only [Formula.otherForm, parseText, read]
      exact given_toJson named decodes
  | object decoded =>
      simp only [Formula.otherForm, decoded]
      exact .text ((lexes_render (legible_select ascii) named).parseWithin parsed)

/-- A value in the other form, if this is wanted. -/
def reform [Limits] (change : Option Bool) (value : Json) : Json :=
  change.elim value fun ascii => otherForm ascii value

theorem Given.reform [Limits] {f : Formula String} {value : Json} (given : f.Given value)
    {change : Option Bool} (low : change.isSome → f.height ≤ min Limits.parsing Limits.decoding) :
    f.Given (reform change value) := by
  cases change with
  | none => exact given
  | some ascii => exact given.otherForm (low rfl) ascii

end Formula

/-! ### Places in a script -/

/-- A place where a script may hold a formula: its goal, or the step with an index. -/
inductive Place where
  | goal
  | step (index : Nat)
  deriving DecidableEq, Repr

/-- Change the form of the formula in a field. -/
def reformField [Limits] (key : Text) (change : Option Bool) (fields : List (Text × Json)) :
    List (Text × Json) :=
  match Ordered.find? key fields with
  | some value => Ordered.put key (Formula.reform change value) fields
  | none => fields

theorem find?_reformField [Limits] (key other : Text) (change : Option Bool)
    (fields : List (Text × Json)) :
    Ordered.find? other (reformField key change fields) =
      if key == other then (Ordered.find? key fields).map (Formula.reform change)
      else Ordered.find? other fields := by
  unfold reformField
  split
  · rename_i value found
    rw [Ordered.find?_put, found, Option.map_some]
  · rename_i absent
    split
    · rename_i same
      rw [← beq_iff_eq.mp same, absent, Option.map_none]
    · rfl

/-- The field in which a step holds a formula. -/
def formulaKey? (fields : List (Text × Json)) : Option Text :=
  match Ordered.find? (.plain "rule") fields with
  | some (.str (.plain "suppose")) => some "formula"
  | some (.str (.plain "disj_intro")) => some "other"
  | _ => none

def Step.reform [Limits] (change : Option Bool) : Json → Json
  | .obj fields =>
      match formulaKey? fields with
      | some key => .obj (reformField key change fields)
      | none => .obj fields
  | value => value

/-- A script with its formulas in other forms: those at some places, with the symbol sets that texts
take. -/
def Script.reform [Limits] (changes : Place → Option Bool) : Json → Json
  | .obj fields =>
      match Ordered.find? (.plain "steps") fields with
      | some (.arr items) =>
          let steps := items.mapIdx fun index => Step.reform (changes (.step index))
          .obj <| reformField "goal" (changes .goal) <|
            Ordered.put (.plain "steps") (.arr steps) fields
      | _ => .obj fields
  | value => value

/-- The formulas whose form changes are not nested too deeply to be read in either form. -/
structure Script.LowAt [Limits] (s : Script Label String) (changes : Place → Option Bool) :
    Prop where
  goal : (changes .goal).isSome → s.goal.height ≤ min Limits.parsing Limits.decoding
  steps : ∀ index step, s.steps[index]? = some step → (changes (.step index)).isSome →
    ∀ f ∈ step.inference.formulas, f.height ≤ min Limits.parsing Limits.decoding

/-! ### Reading -/

theorem Fill.reformField [Limits] {fields : List (Text × Json)} {slots : List (Text × Slot)}
    (filled : Fill fields slots) {key : Text} {change : Option Bool}
    (fits : ∀ slot, (key, slot) ∈ slots →
      ∃ f, slot = .formula f ∧
        (change.isSome → f.height ≤ min Limits.parsing Limits.decoding)) :
    Fill (reformField key change fields) slots := by
  rintro ⟨own, slot⟩ mem
  obtain ⟨value, found, takes⟩ := filled (own, slot) mem
  rw [find?_reformField]
  by_cases same : key = own
  · subst same
    obtain ⟨f, rfl, low⟩ := fits slot mem
    rw [if_pos (beq_self_eq_true key), found]
    exact ⟨_, rfl, Formula.Given.reform takes low⟩
  · rw [if_neg (by simpa using same)]
    exact ⟨value, found, takes⟩

/-- Where the rule of a step says that it holds a formula, it does. -/
theorem Step.exists_formula_of_slot {s : Step Label String} {fields : List (Text × Json)}
    {key : Text} {slot : Slot} (ruled : Ordered.find? (.plain "rule") fields = some (.str s.rule))
    (known : formulaKey? fields = some key) (mem : (key, slot) ∈ s.slots) :
    ∃ f ∈ s.inference.formulas, slot = .formula f := by
  obtain ⟨id, i⟩ := s
  cases i with
  | suppose f label =>
      obtain rfl : .plain "formula" = key := by
        simpa [formulaKey?, ruled, Step.rule, Inference.rule] using known
      exact ⟨f, by simp [Inference.formulas], by simpa [Step.slots, Inference.slots] using mem⟩
  | disjIntro proof other side =>
      obtain rfl : .plain "other" = key := by
        simpa [formulaKey?, ruled, Step.rule, Inference.rule] using known
      exact ⟨other, by simp [Inference.formulas], by simpa [Step.slots, Inference.slots] using mem⟩
  | conjIntro _ _ | conjElim _ _ | implElim _ _ | implIntro _ _ | disjElim _ _ _ _ _ =>
      simp [formulaKey?, ruled, Step.rule, Inference.rule] at known

theorem Step.Given.reform [Limits] {s : Step Label String} {value : Json} (given : s.Given value)
    {change : Option Bool}
    (low : change.isSome → ∀ f ∈ s.inference.formulas,
      f.height ≤ min Limits.parsing Limits.decoding) :
    s.Given (Step.reform change value) := by
  obtain ⟨fields, rfl, filled⟩ := given
  obtain ⟨_, ruled, rfl⟩ := filled ("rule", .exactly (.str s.rule)) (by simp [Step.slots])
  rw [Step.reform]
  split
  · rename_i key known
    refine ⟨_, rfl, filled.reformField fun slot mem => ?_⟩
    obtain ⟨f, held, rfl⟩ := s.exists_formula_of_slot ruled known mem
    exact ⟨f, rfl, fun changed => low changed f held⟩
  · exact ⟨fields, rfl, filled⟩

theorem forall₂_given_reform [Limits] {steps : List (Step Label String)} {values : List Json}
    (all : List.Forall₂ Step.Given steps values) {changes : Nat → Option Bool}
    (low : ∀ index step, steps[index]? = some step → (changes index).isSome →
      ∀ f ∈ step.inference.formulas, f.height ≤ min Limits.parsing Limits.decoding) :
    List.Forall₂ Step.Given steps
      (values.mapIdx fun index => Step.reform (changes index)) := by
  induction all generalizing changes with
  | nil => exact .nil
  | @cons step value rest values given _ ih =>
      rw [List.mapIdx_cons]
      refine .cons (given.reform (low 0 step rfl)) (ih fun index later found => ?_)
      exact low (index + 1) later found

theorem Script.Given.reform [Limits] {s : Script Label String} {value : Json}
    (given : s.Given value) {changes : Place → Option Bool} (low : s.LowAt changes) :
    s.Given (Script.reform changes value) := by
  obtain ⟨named, known, goal, found, all⟩ := given
  simp only [Script.reform, found]
  refine .object ?_ ?_ (goal.reform low.goal) ?_ (forall₂_given_reform all low.steps)
  · simpa [nameOf, find?_reformField, Ordered.find?_put] using named
  · simp [find?_reformField, Ordered.find?_put, known]
  · simp [find?_reformField, Ordered.find?_put]

/-- Formulas of a script can be given in the other form, at any places and with any symbols: it is
the same script that is read, as long as no formula is nested too deeply for that. For every limit
on nesting, the formulas that can be given as texts are those that can be given as objects, and
these are the ones whose variables have names. -/
theorem Script.ofJson_reform [Limits] (limit : Nat) :
    (∀ (value : Json) (s : Script Label String) (changes : Place → Option Bool),
      Script.ofJson value = .ok s → s.LowAt changes →
        Script.ofJson (Script.reform changes value) = .ok s) ∧
    ∀ f : Formula String, f.height ≤ limit →
      ((∃ text, Formula.parseWithin limit text = .ok f) ↔
        ∀ name ∈ f.occurrences, Formula.IsVariableName name) ∧
      ((∃ fields, Formula.ofJsonWithin (limit + 1) (.obj fields) = .ok f) ↔
        ∀ name ∈ f.occurrences, Formula.IsVariableName name) := by
  simp only [← Formula.isIdentifier_iff]
  constructor
  · intro value s changes read low
    obtain ⟨given, valid⟩ := Script.ofJson_eq_ok_iff.mp read
    exact Script.ofJson_eq_ok_iff.mpr ⟨given.reform low, valid⟩
  · intro f low
    exact ⟨Formula.exists_text_iff low, Formula.exists_object_iff (Nat.lt_succ_of_le low)⟩

/-- The text becomes an object and the object a text. -/
theorem identityValue_reformed :
    let _ : Limits := .uniform 1
    Script.reform (fun _ => some true) (identityValue (.int 1)) =
        .obj [("goal", .obj [("type", .str "impl"),
            ("lhs", .obj [("type", .str "var"), ("name", .str "p")]),
            ("rhs", .obj [("type", .str "var"), ("name", .str "p")])]),
          ("steps", .arr [
            .obj [("id", .str "h"), ("rule", .str "suppose"), ("label", .int 1),
              ("formula", .str "p")],
            .obj [("id", .str "r"), ("rule", .str "impl_intro"), ("label", .int 1),
              ("proof", .str "h")]])] ∧
      Script.ofJson (Script.reform (fun _ => some true) (identityValue (.int 1))) =
        .ok identityScript ∧
      ∃ fields, Formula.ofJsonWithin 2 (.obj fields) = .ok identityScript.goal := by
  intro _
  have read : Script.ofJson (identityValue (.int 1)) = .ok identityScript := by
    with_unfolding_all rfl
  have low : identityScript.LowAt fun _ => some true := by
    refine ⟨fun _ => by decide, fun index step found _ => ?_⟩
    have all : ∀ step ∈ identityScript.steps, ∀ f ∈ step.inference.formulas,
        f.height ≤ 1 := by decide
    exact all step (List.mem_of_getElem? found)
  have named : ∀ name ∈ identityScript.goal.occurrences, Formula.IsVariableName name := by
    decide
  refine ⟨by with_unfolding_all rfl, (Script.ofJson_reform 1).1 _ _ _ read low, ?_⟩
  exact ((Script.ofJson_reform 1).2 identityScript.goal (by decide)).2.mpr named

end Deduction
