import Deduction.Proofs.Json.Reading
import Deduction.Proofs.Replay
import Deduction.Proofs.RoundTrip
import Deduction.Script.Codec

/-!
Scripts as Json values.

A script is read from a value exactly if it is valid and the value holds its parts. What a field of
a step may hold is told by its slot: a formula is given as a text or as an object, and everything
else in one way only.
-/

namespace Deduction

/-! ### Formulas -/

namespace Formula

/-- A Json value that stands for a formula. Keys that the type does not use may hold anything. -/
inductive Encoded : Json → Formula String → Prop
  | var {fields : List (Text × Json)} {name : String} :
      Ordered.find? (.plain "type") fields = some (.str "var") →
      Ordered.find? (.plain "name") fields = some (.str name) → isIdentifier name = true →
      Encoded (.obj fields) (.var name)
  | conj {fields : List (Text × Json)} {lhs rhs f g} :
      Ordered.find? (.plain "type") fields = some (.str "conj") →
      Ordered.find? (.plain "lhs") fields = some lhs → Encoded lhs f →
      Ordered.find? (.plain "rhs") fields = some rhs → Encoded rhs g →
      Encoded (.obj fields) (.conj f g)
  | disj {fields : List (Text × Json)} {lhs rhs f g} :
      Ordered.find? (.plain "type") fields = some (.str "disj") →
      Ordered.find? (.plain "lhs") fields = some lhs → Encoded lhs f →
      Ordered.find? (.plain "rhs") fields = some rhs → Encoded rhs g →
      Encoded (.obj fields) (.disj f g)
  | impl {fields : List (Text × Json)} {lhs rhs f g} :
      Ordered.find? (.plain "type") fields = some (.str "impl") →
      Ordered.find? (.plain "lhs") fields = some lhs → Encoded lhs f →
      Ordered.find? (.plain "rhs") fields = some rhs → Encoded rhs g →
      Encoded (.obj fields) (.impl f g)

theorem field_eq_ok_iff {value found : Json} {key : String} :
    field value key = .ok found ↔
      ∃ fields, value = .obj fields ∧ Ordered.find? (.plain key) fields = some found := by
  cases value with
  | obj fields =>
      simp only [field]
      split <;> simp_all
  | null | bool _ | int _ | real _ | str _ | arr _ => simp [field]

@[simp]
theorem field_obj_eq_ok_iff {fields : List (Text × Json)} {found : Json} {key : String} :
    field (.obj fields) key = .ok found ↔ Ordered.find? (.plain key) fields = some found := by
  simp [field_eq_ok_iff]

@[simp]
theorem refuse_ne_ok (room : Nat) (reason : Json → DecodeError) (value : Json)
    (f : Formula String) : refuse room reason value ≠ .ok f := nofun

theorem ofName_eq_ok_iff {room : Nat} {value : Json} {f : Formula String} :
    ofName room value = .ok f ↔
      ∃ name : String, value = .str name ∧ isIdentifier name = true ∧ .var name = f := by
  cases value with
  | str text =>
      cases text with
      | plain name => by_cases identifier : isIdentifier name = true <;> simp [ofName, identifier]
      | broken before half after => simp [ofName]
  | null | bool _ | int _ | real _ | obj _ | arr _ => simp [ofName]

theorem encoded_of_ofJsonWithin {room : Nat} {value : Json} {f : Formula String}
    (decoded : ofJsonWithin room value = .ok f) : Encoded value f ∧ f.height < room := by
  induction room generalizing value f with
  | zero => simp [ofJsonWithin] at decoded
  | succ room ih =>
      rw [ofJsonWithin, bind_eq_ok_iff] at decoded
      obtain ⟨kind, found, decoded⟩ := decoded
      obtain ⟨fields, rfl, typed⟩ := field_eq_ok_iff.mp found
      split at decoded
      · simp only [bind_eq_ok_iff, field_obj_eq_ok_iff, ofName_eq_ok_iff] at decoded
        obtain ⟨-, named, name, rfl, identifier, rfl⟩ := decoded
        exact ⟨.var typed named identifier, Nat.succ_pos room⟩
      all_goals
        simp only [bind_eq_ok_iff, pure_eq_ok_iff, field_obj_eq_ok_iff, refuse_ne_ok] at decoded
      all_goals
        obtain ⟨lhs, left, f, decodedLeft, rhs, right, g, decodedRight, rfl⟩ := decoded
        obtain ⟨encodedLeft, lowLeft⟩ := ih decodedLeft
        obtain ⟨encodedRight, lowRight⟩ := ih decodedRight
        refine ⟨?_, by simp only [height]; omega⟩
      · exact .conj typed left encodedLeft right encodedRight
      · exact .disj typed left encodedLeft right encodedRight
      · exact .impl typed left encodedLeft right encodedRight

theorem Encoded.ofJsonWithin {value : Json} {f : Formula String} (encoded : Encoded value f)
    {room : Nat} (low : f.height < room) : ofJsonWithin room value = .ok f := by
  induction encoded generalizing room with
  | var typed named identifier =>
      obtain ⟨room, rfl⟩ := Nat.exists_eq_add_one_of_ne_zero (Nat.ne_zero_of_lt low)
      simp [Formula.ofJsonWithin, field, typed, named, ofName, identifier]
  | conj typed left _ right _ ihl ihr | disj typed left _ right _ ihl ihr
  | impl typed left _ right _ ihl ihr =>
      obtain ⟨room, rfl⟩ := Nat.exists_eq_add_one_of_ne_zero (Nat.ne_zero_of_lt low)
      simp only [height] at low
      have leftRead := @ihl room (by omega)
      have rightRead := @ihr room (by omega)
      simp [Formula.ofJsonWithin, field, typed, left, right, leftRead, rightRead, pure, Except.pure]

/-- Formulas are read from the values that stand for them, as long as they are low enough. -/
theorem ofJsonWithin_eq_ok_iff {room : Nat} {value : Json} {f : Formula String} :
    ofJsonWithin room value = .ok f ↔ Encoded value f ∧ f.height < room :=
  ⟨encoded_of_ofJsonWithin, fun h => h.1.ofJsonWithin h.2⟩

theorem Encoded.isIdentifier {value : Json} {f : Formula String} (encoded : Encoded value f) :
    ∀ name ∈ f.occurrences, isIdentifier name = true := by
  induction encoded with
  | var _ _ identifier => simpa [occurrences] using identifier
  | conj _ _ _ _ _ ihl ihr | disj _ _ _ _ _ ihl ihr | impl _ _ _ _ _ ihl ihr =>
      intro name mem
      rcases List.mem_append.mp mem with mem | mem
      · exact ihl name mem
      · exact ihr name mem

theorem encoded_toJson {f : Formula String}
    (named : ∀ name ∈ f.occurrences, isIdentifier name = true) : Encoded f.toJson f := by
  induction f with
  | var name => exact .var rfl rfl (named name (by simp [occurrences]))
  | conj lhs rhs ihl ihr =>
      exact .conj rfl rfl (ihl fun name mem => named name (List.mem_append_left _ mem)) rfl
        (ihr fun name mem => named name (List.mem_append_right _ mem))
  | disj lhs rhs ihl ihr =>
      exact .disj rfl rfl (ihl fun name mem => named name (List.mem_append_left _ mem)) rfl
        (ihr fun name mem => named name (List.mem_append_right _ mem))
  | impl lhs rhs ihl ihr =>
      exact .impl rfl rfl (ihl fun name mem => named name (List.mem_append_left _ mem)) rfl
        (ihr fun name mem => named name (List.mem_append_right _ mem))

theorem ofJson_toJson [Limits] {f : Formula String}
    (named : ∀ name ∈ f.occurrences, isIdentifier name = true) (low : f.height ≤ Limits.decoding) :
    ofJson f.toJson = .ok f :=
  ofJsonWithin_eq_ok_iff.mpr ⟨encoded_toJson named, Nat.lt_succ_of_le low⟩

theorem parseText_eq_ok_iff [Limits] {text : Text} {f : Formula String} :
    parseText text = .ok f ↔ ∃ plain : String, text = plain ∧ parse plain = .ok f := by
  cases text with
  | plain plain => simp [parseText]
  | broken before half after =>
      simp only [parseText, reduceCtorEq, false_and, exists_false, iff_false]
      split <;> simp

/-- What a script may hold for a formula: a text in infix form, or an object. -/
inductive Given [Limits] : Formula String → Json → Prop
  | text {f} {text : String} : parse text = .ok f → Given f (.str text)
  | object {f fields} : ofJson (.obj fields) = .ok f → Given f (.obj fields)

theorem Given.isIdentifier [Limits] {f : Formula String} {value : Json} (given : f.Given value) :
    ∀ name ∈ f.occurrences, isIdentifier name = true := by
  cases given with
  | text read => exact isIdentifier_of_parseAny (parseAny_of_parse read)
  | object decoded => exact (ofJsonWithin_eq_ok_iff.mp decoded).1.isIdentifier

end Formula

/-! ### Fields -/

namespace Fields

variable {o : Fields} {field : String}

theorem value_eq_ok_iff {value : Json} :
    o.value field = .ok value ↔ Ordered.find? (.plain field) o.fields = some value := by
  unfold Fields.value
  split <;> simp_all

theorem formula_eq_ok_iff [Limits] {f : Formula String} :
    o.formula field = .ok f ↔
      ∃ value, Ordered.find? (.plain field) o.fields = some value ∧ f.Given value := by
  simp only [Fields.formula, bind_eq_ok_iff, value_eq_ok_iff]
  refine exists_congr fun value => and_congr_right fun _ => ⟨fun read => ?_, fun given => ?_⟩
  · cases value with
    | str text =>
        cases parsed : Formula.parseText text with
        | ok g =>
            obtain rfl : f = g := by simpa [parsed, pure_eq_ok_iff] using read
            obtain ⟨plain, rfl, parsed⟩ := Formula.parseText_eq_ok_iff.mp parsed
            exact .text parsed
        | error e => simp [parsed, throw, throwThe, MonadExceptOf.throw] at read
    | obj fields =>
        cases decoded : Formula.ofJson (.obj fields) with
        | ok g =>
            obtain rfl : f = g := by simpa [decoded, pure_eq_ok_iff] using read
            exact .object decoded
        | error e => simp [decoded, throw, throwThe, MonadExceptOf.throw] at read
    | null | bool _ | int _ | real _ | arr _ =>
        simp [throw, throwThe, MonadExceptOf.throw] at read
  · cases given with
    | text parsed => simp [Formula.parseText, parsed, pure_eq_ok_iff]
    | object decoded => simp [decoded, pure_eq_ok_iff]

theorem label_eq_ok_iff {label : Label} :
    o.label field = .ok label ↔ Ordered.find? (.plain field) o.fields = some label.toJson := by
  simp only [Fields.label, bind_eq_ok_iff, value_eq_ok_iff]
  constructor
  · rintro ⟨value, found, read⟩
    cases value with
    | int n =>
        obtain rfl : label = .number n := pure_eq_ok_iff.mp read
        exact found
    | str text =>
        obtain rfl : label = .name text := pure_eq_ok_iff.mp read
        exact found
    | null | bool _ | real _ | arr _ | obj _ =>
        simp [throw, throwThe, MonadExceptOf.throw] at read
  · intro found
    exact ⟨label.toJson, found, by cases label <;> rfl⟩

theorem stepId_eq_ok_iff {id : Text} :
    o.stepId field = .ok id ↔ Ordered.find? (.plain field) o.fields = some (.str id) := by
  simp only [Fields.stepId, bind_eq_ok_iff, value_eq_ok_iff]
  constructor
  · rintro ⟨value, found, read⟩
    cases value with
    | str text =>
        obtain rfl : id = text := pure_eq_ok_iff.mp read
        exact found
    | null | bool _ | int _ | real _ | arr _ | obj _ =>
        simp [throw, throwThe, MonadExceptOf.throw] at read
  · intro found
    exact ⟨.str id, found, rfl⟩

theorem side_eq_ok_iff {side : Side} :
    o.side field = .ok side ↔ Ordered.find? (.plain field) o.fields = some (.str side.name) := by
  simp only [Fields.side, bind_eq_ok_iff, value_eq_ok_iff]
  constructor
  · rintro ⟨value, found, read⟩
    split at read
    · obtain rfl : side = .left := pure_eq_ok_iff.mp read
      exact found
    · obtain rfl : side = .right := pure_eq_ok_iff.mp read
      exact found
    · simp [throw, throwThe, MonadExceptOf.throw] at read
  · intro found
    exact ⟨.str side.name, found, by cases side <;> rfl⟩

end Fields

/-! ### Steps -/

/-- What a field of a step holds: a formula in one of its forms, or one value and no other. -/
inductive Slot where
  | formula (f : Formula String)
  | exactly (value : Json)

namespace Slot

def Takes [Limits] : Slot → Json → Prop
  | .formula f, value => f.Given value
  | .exactly wanted, value => value = wanted

def toJson : Slot → Json
  | .formula f => f.toJson
  | .exactly value => value

end Slot

/-- Every slot takes what the field of its name holds. -/
def Fill [Limits] (fields : List (Text × Json)) (slots : List (Text × Slot)) : Prop :=
  ∀ entry ∈ slots, ∃ value, Ordered.find? entry.1 fields = some value ∧ entry.2.Takes value

def Inference.slots : Inference Text Label String → List (Text × Slot)
  | .suppose formula label => [("formula", .formula formula), ("label", .exactly label.toJson)]
  | .conjIntro left right => [("left", .exactly (.str left)), ("right", .exactly (.str right))]
  | .conjElim proof side => [("proof", .exactly (.str proof)), ("side", .exactly (.str side.name))]
  | .implElim premise implication =>
      [("premise", .exactly (.str premise)), ("implication", .exactly (.str implication))]
  | .implIntro label proof => [("label", .exactly label.toJson), ("proof", .exactly (.str proof))]
  | .disjIntro proof other side =>
      [("proof", .exactly (.str proof)), ("other", .formula other),
        ("side", .exactly (.str side.name))]
  | .disjElim disjunction leftCase leftLabel rightCase rightLabel =>
      [("disjunction", .exactly (.str disjunction)), ("left_case", .exactly (.str leftCase)),
        ("left_label", .exactly leftLabel.toJson), ("right_case", .exactly (.str rightCase)),
        ("right_label", .exactly rightLabel.toJson)]

def Step.slots (s : Step Label String) : List (Text × Slot) :=
  ("id", .exactly (.str s.id)) :: ("rule", .exactly (.str s.rule)) :: s.inference.slots

theorem Step.toJson_eq (s : Step Label String) :
    s.toJson = .obj (s.slots.map fun entry => (entry.1, entry.2.toJson)) := by
  obtain ⟨id, inference⟩ := s
  cases inference <;> rfl

@[simp]
theorem fill_nil [Limits] (fields : List (Text × Json)) : Fill fields [] := by
  simp [Fill]

@[simp]
theorem fill_formula_iff [Limits] {fields : List (Text × Json)} {key : Text} {f : Formula String}
    {rest : List (Text × Slot)} :
    Fill fields ((key, .formula f) :: rest) ↔
      (∃ value, Ordered.find? key fields = some value ∧ f.Given value) ∧ Fill fields rest := by
  simp [Fill, Slot.Takes]

@[simp]
theorem fill_exactly_iff [Limits] {fields : List (Text × Json)} {key : Text} {value : Json}
    {rest : List (Text × Slot)} :
    Fill fields ((key, .exactly value) :: rest) ↔
      Ordered.find? key fields = some value ∧ Fill fields rest := by
  simp [Fill, Slot.Takes]

namespace Fields

variable {o : Fields}

/-- A rule is read where the fields hold what it is applied to. -/
theorem inference_eq_ok_iff [Limits] {i : Inference Text Label String} :
    o.inference = .ok i ↔ Fill o.fields (("rule", .exactly (.str i.rule)) :: i.slots) := by
  simp only [Fields.inference, bind_eq_ok_iff, value_eq_ok_iff, fill_exactly_iff]
  constructor
  · rintro ⟨rule, found, read⟩
    split at read
    case h_8 => simp [throw, throwThe, MonadExceptOf.throw] at read
    all_goals
      simp only [bind_eq_ok_iff, pure_eq_ok_iff, formula_eq_ok_iff, label_eq_ok_iff,
        stepId_eq_ok_iff, side_eq_ok_iff] at read
    · obtain ⟨f, given, label, labelled, rfl⟩ := read
      simp [found, Inference.rule, Inference.slots, given, labelled]
    · obtain ⟨l, left, r, right, rfl⟩ := read
      simp [found, Inference.rule, Inference.slots, left, right]
    · obtain ⟨p, proof, side, picked, rfl⟩ := read
      simp [found, Inference.rule, Inference.slots, proof, picked]
    · obtain ⟨p, premise, q, implication, rfl⟩ := read
      simp [found, Inference.rule, Inference.slots, premise, implication]
    · obtain ⟨label, labelled, p, proof, rfl⟩ := read
      simp [found, Inference.rule, Inference.slots, proof, labelled]
    · obtain ⟨p, proof, f, given, side, picked, rfl⟩ := read
      simp [found, Inference.rule, Inference.slots, proof, given, picked]
    · obtain ⟨r, disjunction, s, left, l₁, leftLabel, t, right, l₂, rightLabel, rfl⟩ := read
      simp [found, Inference.rule, Inference.slots, disjunction, left, leftLabel, right, rightLabel]
  · rintro ⟨found, filled⟩
    refine ⟨_, found, ?_⟩
    cases i <;>
      simp only [Inference.slots, fill_exactly_iff, fill_formula_iff, fill_nil, and_true]
        at filled <;>
      simp only [Inference.rule, bind_eq_ok_iff, pure_eq_ok_iff, formula_eq_ok_iff, label_eq_ok_iff,
        stepId_eq_ok_iff, side_eq_ok_iff]
    case suppose f label => exact ⟨f, filled.1, label, filled.2, rfl⟩
    case conjIntro l r => exact ⟨l, filled.1, r, filled.2, rfl⟩
    case conjElim p side => exact ⟨p, filled.1, side, filled.2, rfl⟩
    case implElim p q => exact ⟨p, filled.1, q, filled.2, rfl⟩
    case implIntro label p => exact ⟨label, filled.1, p, filled.2, rfl⟩
    case disjIntro p f side =>
      obtain ⟨proof, given, picked⟩ := filled
      exact ⟨p, proof, f, given, side, picked, rfl⟩
    case disjElim r s l₁ t l₂ =>
      obtain ⟨disjunction, left, leftLabel, right, rightLabel⟩ := filled
      exact ⟨r, disjunction, s, left, l₁, leftLabel, t, right, l₂, rightLabel, rfl⟩

end Fields

/-- The fields of a Json object fill the slots of a step. -/
def Step.Given [Limits] (s : Step Label String) (value : Json) : Prop :=
  ∃ fields, value = .obj fields ∧ Fill fields s.slots

theorem Step.ofJson_eq_ok_iff [Limits] {place : String} {value : Json} {s : Step Label String} :
    Step.ofJson place value = .ok s ↔ s.Given value := by
  cases value with
  | obj fields =>
      simp only [Step.ofJson, bind_eq_ok_iff, pure_eq_ok_iff, Fields.stepId_eq_ok_iff,
        Fields.inference_eq_ok_iff, Step.Given, Json.obj.injEq, exists_eq_left', Step.slots,
        fill_exactly_iff]
      constructor
      · rintro ⟨id, named, i, filled, rfl⟩
        exact ⟨named, filled⟩
      · rintro ⟨named, filled⟩
        exact ⟨s.id, named, s.inference, filled, rfl⟩
  | null | bool _ | int _ | real _ | str _ | arr _ =>
      simp [Step.ofJson, Step.Given, throw, throwThe, MonadExceptOf.throw]

/-! ### Scripts -/

theorem stepsOfJson_eq_ok_iff [Limits] {index : Nat} {values : List Json}
    {steps : List (Step Label String)} :
    stepsOfJson index values = .ok steps ↔ List.Forall₂ Step.Given steps values := by
  induction values generalizing index steps with
  | nil => simp [stepsOfJson, pure_eq_ok_iff]
  | cons value rest ih =>
      simp only [stepsOfJson, bind_eq_ok_iff, pure_eq_ok_iff, Step.ofJson_eq_ok_iff, ih]
      constructor
      · rintro ⟨step, given, later, others, rfl⟩
        exact .cons given others
      · intro all
        cases all with
        | cons given others => exact ⟨_, given, _, others, rfl⟩

/-- A Json value that holds the parts of a script. -/
inductive Script.Given [Limits] (s : Script Label String) : Json → Prop
  | object {fields : List (Text × Json)} {values goal} : Script.nameOf fields = .ok s.name →
      Ordered.find? (.plain "goal") fields = some goal → s.goal.Given goal →
      Ordered.find? (.plain "steps") fields = some (.arr values) →
      List.Forall₂ Step.Given s.steps values → Given s (.obj fields)

theorem LoadError.told_eq_ok_iff [Limits] {α : Type} {result : Except FormatError α} {a : α} :
    told result = .ok a ↔ result = .ok a := by
  cases result <;> simp [told, Except.mapError]

/-- A script is read from a value exactly if the value holds its parts and the script is valid. -/
theorem Script.ofJson_eq_ok_iff [Limits] {value : Json} {s : Script Label String} :
    Script.ofJson value = .ok s ↔ s.Given value ∧ s.validate = .ok () := by
  cases value with
  | obj fields =>
      simp only [Script.ofJson, bind_eq_ok_iff, LoadError.told_eq_ok_iff, Fields.value_eq_ok_iff]
      constructor
      · rintro ⟨listed, found, read⟩
        split at read
        case h_2 => simp [throw, throwThe, MonadExceptOf.throw] at read
        rename_i values
        simp only [bind_eq_ok_iff, LoadError.told_eq_ok_iff, Fields.formula_eq_ok_iff,
          stepsOfJson_eq_ok_iff] at read
        obtain ⟨name, named, f, ⟨goal, known, given⟩, steps, all, read⟩ := read
        split at read
        case h_2 => simp [throw, throwThe, MonadExceptOf.throw] at read
        rename_i valid
        obtain rfl := pure_eq_ok_iff.mp read
        exact ⟨.object named known given found all, valid⟩
      · rintro ⟨⟨named, known, given, found, all⟩, valid⟩
        refine ⟨_, found, ?_⟩
        simp only [bind_eq_ok_iff, LoadError.told_eq_ok_iff, Fields.formula_eq_ok_iff,
          stepsOfJson_eq_ok_iff]
        refine ⟨s.name, named, s.goal, ⟨_, known, given⟩, s.steps, all, ?_⟩
        simp [valid, pure_eq_ok_iff]
  | null | bool _ | int _ | real _ | str _ | arr _ =>
      simp only [Script.ofJson, throw, throwThe, MonadExceptOf.throw, reduceCtorEq, false_iff]
      rintro ⟨⟨⟩, -⟩

theorem Inference.exists_slot_of_formula {i : Inference Text Label String} {f : Formula String}
    (mem : f ∈ i.formulas) : ∃ key, (key, .formula f) ∈ i.slots := by
  cases i with
  | suppose formula label =>
      obtain rfl : f = formula := by simpa [Inference.formulas] using mem
      exact ⟨"formula", by simp [Inference.slots]⟩
  | disjIntro proof other side =>
      obtain rfl : f = other := by simpa [Inference.formulas] using mem
      exact ⟨"other", by simp [Inference.slots]⟩
  | conjIntro _ _ | conjElim _ _ | implElim _ _ | implIntro _ _ | disjElim _ _ _ _ _ =>
      simp [Inference.formulas] at mem

theorem exists_given_of_mem [Limits] {steps : List (Step Label String)} {values : List Json}
    (all : List.Forall₂ Step.Given steps values) {step : Step Label String} (mem : step ∈ steps) :
    ∃ value ∈ values, step.Given value := by
  induction all with
  | nil => simp at mem
  | @cons head value rest values given _ ih =>
      rcases List.mem_cons.mp mem with rfl | mem
      · exact ⟨value, List.mem_cons_self, given⟩
      · obtain ⟨found, listed, given⟩ := ih mem
        exact ⟨found, List.mem_cons_of_mem _ listed, given⟩

theorem Script.Given.isIdentifier [Limits] {s : Script Label String} {value : Json}
    (given : s.Given value) :
    ∀ f ∈ s.formulas, ∀ name ∈ f.occurrences, Formula.isIdentifier name = true := by
  obtain ⟨-, -, goal, -, all⟩ := given
  intro f mem
  rcases List.mem_cons.mp mem with rfl | mem
  · exact goal.isIdentifier
  · obtain ⟨step, listed, mem⟩ := List.mem_flatMap.mp mem
    obtain ⟨key, slot⟩ := Inference.exists_slot_of_formula mem
    obtain ⟨item, -, fields, -, filled⟩ := exists_given_of_mem all listed
    obtain ⟨held, -, given⟩ := filled (key, .formula f) (by simp [Step.slots, slot])
    exact Formula.Given.isIdentifier given

/-! ### Errors -/

/-- If there is an error, it has the property. -/
def ErrsOnly {Error α : Type} (P : Error → Prop) (result : Except Error α) : Prop :=
  ∀ e, result = .error e → P e

section

variable {Error α β : Type} {P : Error → Prop}

theorem errsOnly_pure (a : α) : ErrsOnly P (pure a : Except Error α) := nofun

theorem errsOnly_throw {e : Error} (allowed : P e) :
    ErrsOnly P (throw e : Except Error α) := by
  intro e' same
  obtain rfl := Except.error.inj same
  exact allowed

theorem ErrsOnly.bind {result : Except Error α} {next : α → Except Error β}
    (first : ErrsOnly P result) (rest : ∀ a, result = .ok a → ErrsOnly P (next a)) :
    ErrsOnly P (result >>= next) := by
  cases result with
  | error e =>
      intro e' same
      obtain rfl := Except.error.inj same
      exact first e rfl
  | ok a => exact rest a rfl

theorem ErrsOnly.imp {Q : Error → Prop} {result : Except Error α} (errs : ErrsOnly P result)
    (imp : ∀ e, P e → Q e) : ErrsOnly Q result :=
  fun e failed => imp e (errs e failed)

end

/-- An error goes too deep for a message only if the value goes deeper than one of the limits. -/
def FormatError.ToldOf [Limits] (value : Json) (e : FormatError) : Prop :=
  e.tooDeep = true → ∃ field, Limits.quoting field < value.depth

theorem FormatError.ToldOf.of_depth_le [Limits] {part value : Json} {e : FormatError}
    (told : e.ToldOf part) (le : part.depth ≤ value.depth) : e.ToldOf value := by
  intro deep
  obtain ⟨field, exceeds⟩ := told deep
  exact ⟨field, Nat.lt_of_lt_of_le exceeds le⟩

theorem Json.depth_lt_of_find? {fields : List (Text × Json)} {key : Text} {found : Json}
    (known : Ordered.find? key fields = some found) : found.depth < (Json.obj fields).depth := by
  obtain ⟨spelling, -, mem⟩ := Ordered.exists_mem_of_find? known
  exact Json.depth_lt_of_mem_obj mem

namespace Fields

variable [Limits] (o : Fields) (field : String)

theorem tells_value : ErrsOnly (FormatError.ToldOf (.obj o.fields)) (o.value field) := by
  unfold Fields.value
  split
  · exact errsOnly_pure _
  · exact errsOnly_throw nofun

theorem tells_formula : ErrsOnly (FormatError.ToldOf (.obj o.fields)) (o.formula field) := by
  refine (o.tells_value field).bind fun value _ => ?_
  split
  · split
    · exact errsOnly_pure _
    · exact errsOnly_throw nofun
  · split
    · exact errsOnly_pure _
    · exact errsOnly_throw nofun
  · exact errsOnly_throw nofun

/-- A value that is quoted is one of the fields. -/
theorem tells_quote {α : Type} {value : Json} (found : o.value field = .ok value)
    {e : FormatError} {key : String}
    (quotes : e.tooDeep = decide (Limits.quoting key < value.depth)) :
    ErrsOnly (FormatError.ToldOf (.obj o.fields)) (throw e : Except FormatError α) := by
  refine errsOnly_throw fun deep => ⟨key, ?_⟩
  have smaller := Json.depth_lt_of_find? (value_eq_ok_iff.mp found)
  exact Nat.lt_trans (by simpa [quotes] using deep) smaller

theorem tells_label : ErrsOnly (FormatError.ToldOf (.obj o.fields)) (o.label field) := by
  refine (o.tells_value field).bind fun value found => ?_
  split
  · exact errsOnly_pure _
  · exact errsOnly_pure _
  · exact o.tells_quote field found rfl

theorem tells_stepId : ErrsOnly (FormatError.ToldOf (.obj o.fields)) (o.stepId field) := by
  refine (o.tells_value field).bind fun value found => ?_
  split
  · exact errsOnly_pure _
  · exact o.tells_quote field found rfl

theorem tells_side : ErrsOnly (FormatError.ToldOf (.obj o.fields)) (o.side field) := by
  refine (o.tells_value field).bind fun value found => ?_
  split
  · exact errsOnly_pure _
  · exact errsOnly_pure _
  · exact o.tells_quote field found rfl

theorem tells_inference : ErrsOnly (FormatError.ToldOf (.obj o.fields)) o.inference := by
  refine (o.tells_value "rule").bind fun rule found => ?_
  split
  case h_8 => exact o.tells_quote "rule" found rfl
  all_goals
    repeat' first
      | exact errsOnly_pure _
      | refine (o.tells_formula _).bind fun _ _ => ?_
      | refine (o.tells_label _).bind fun _ _ => ?_
      | refine (o.tells_stepId _).bind fun _ _ => ?_
      | refine (o.tells_side _).bind fun _ _ => ?_

end Fields

theorem Step.tells_ofJson [Limits] (place : String) (value : Json) :
    ErrsOnly (FormatError.ToldOf value) (Step.ofJson place value) := by
  cases value with
  | obj fields =>
      let o : Fields := ⟨place, fields⟩
      refine (o.tells_stepId "id").bind fun _ _ => ?_
      exact o.tells_inference.bind fun _ _ => errsOnly_pure _
  | null | bool _ | int _ | real _ | str _ | arr _ => exact errsOnly_throw nofun

theorem tells_stepsOfJson [Limits] (index : Nat) (values : List Json) :
    ErrsOnly (FormatError.ToldOf (.arr values)) (stepsOfJson index values) := by
  induction values generalizing index with
  | nil => exact errsOnly_pure _
  | cons value rest ih =>
      have first : value.depth ≤ (Json.arr (value :: rest)).depth :=
        Nat.le_of_lt (Json.depth_lt_of_mem_arr List.mem_cons_self)
      have others : (Json.arr rest).depth ≤ (Json.arr (value :: rest)).depth :=
        Nat.succ_le_succ (Nat.le_max_right _ _)
      refine ErrsOnly.bind ?_ fun _ _ => ErrsOnly.bind ?_ fun _ _ => errsOnly_pure _
      · exact (Step.tells_ofJson _ value).imp fun e told => told.of_depth_le first
      · exact (ih (index + 1)).imp fun e told => told.of_depth_le others

/-- Loading from a value ends with an error of the format, unless the value goes too deep. -/
def LoadError.AboutFormat [Limits] (value : Json) (e : LoadError) : Prop :=
  (∃ error, e = .format error) ∨ e = .tooDeep ∧ ∃ field, Limits.quoting field < value.depth

theorem LoadError.errsOnly_told [Limits] {α : Type} {value : Json} {result : Except FormatError α}
    (tells : ErrsOnly (FormatError.ToldOf value) result) :
    ErrsOnly (LoadError.AboutFormat value) (LoadError.told result) := by
  cases result with
  | ok a => exact errsOnly_pure a
  | error e =>
      refine errsOnly_throw ?_
      by_cases deep : e.tooDeep = true
      · exact .inr ⟨if_pos deep, tells e rfl deep⟩
      · exact .inl ⟨e, if_neg deep⟩

theorem Script.errsOnly_ofJson [Limits] (value : Json) :
    ErrsOnly (LoadError.AboutFormat value) (Script.ofJson value) := by
  cases value with
  | obj fields =>
      let o : Fields := ⟨"script", fields⟩
      refine (LoadError.errsOnly_told (o.tells_value "steps")).bind fun listed found => ?_
      have known := LoadError.told_eq_ok_iff.mp found
      split
      · rename_i values
        have steps : (Json.arr values).depth ≤ (Json.obj fields).depth :=
          Nat.le_of_lt (Json.depth_lt_of_find? (Fields.value_eq_ok_iff.mp known))
        refine ErrsOnly.bind ?_ fun name _ => ?_
        · unfold Script.nameOf
          split
          · rename_i value named
            have smaller := Json.depth_lt_of_find? named
            split
            · rename_i deep
              exact errsOnly_throw (.inr ⟨rfl, "name", Nat.lt_trans deep smaller⟩)
            · exact errsOnly_pure _
          · exact errsOnly_pure _
        refine (LoadError.errsOnly_told (o.tells_formula "goal")).bind fun goal _ => ?_
        refine (LoadError.errsOnly_told ((tells_stepsOfJson 0 values).imp
          fun e told => told.of_depth_le steps)).bind fun steps _ => ?_
        simp only
        split
        · exact errsOnly_pure _
        · exact errsOnly_throw (.inl ⟨_, rfl⟩)
      · exact errsOnly_throw (.inl ⟨_, rfl⟩)
  | null | bool _ | int _ | real _ | str _ | arr _ => exact errsOnly_throw (.inl ⟨_, rfl⟩)

/-- A Json value is refused, or a valid script is read from it that holds what the value holds:
labels are integers or texts, ids and references are texts, sides are one of the two, and the
formulas are given in one of their forms, with identifiers as names. What is refused has an error of
the format, unless the value goes deeper than one of the limits on what is quoted. Every valid
script can be replayed: it ends in a verdict. -/
theorem Script.ofJson_cases [Limits] (value : Json) :
    ((∃ e, Script.ofJson value = .error e) ↔
        ¬ ∃ s : Script Label String, s.Given value ∧ s.validate = .ok ()) ∧
      (∀ e, Script.ofJson value = .error e → (∃ error, e = .format error) ∨
        e = .tooDeep ∧ ∃ field, Limits.quoting field < value.depth) ∧
      (∀ s, Script.ofJson value = .ok s ↔ s.Given value ∧ s.validate = .ok ()) ∧
      (∀ s, Script.ofJson value = .ok s →
        ∀ f ∈ s.formulas, ∀ name ∈ f.occurrences, Formula.IsVariableName name) ∧
      ∀ s : Script Label String, s.validate = .ok () → ∃ verdict, s.replay = .ok verdict := by
  refine ⟨?_, ?_, fun s => Script.ofJson_eq_ok_iff, fun s read f mem name occurs => ?_,
    fun s valid => s.exists_verdict valid⟩
  · simp only [← Script.ofJson_eq_ok_iff]
    cases Script.ofJson value <;> simp
  · exact Script.errsOnly_ofJson value
  · have given := (Script.ofJson_eq_ok_iff.mp read).1
    exact Formula.isIdentifier_iff.mp (given.isIdentifier f mem name occurs)

/-- A proof of `p → p` under a label, with one formula in each form. -/
def identityValue (label : Json) : Json :=
  .obj [("goal", .str "p -> p"), ("steps", .arr [
    .obj [("id", .str "h"), ("rule", .str "suppose"), ("label", label),
      ("formula", .obj [("type", .str "var"), ("name", .str "p")])],
    .obj [("id", .str "r"), ("rule", .str "impl_intro"), ("label", label), ("proof", .str "h")]])]

def identityScript : Script Label String :=
  ⟨"unnamed", .impl (.var "p") (.var "p"),
    [⟨"h", .suppose (.var "p") (.number 1)⟩, ⟨"r", .implIntro (.number 1) "h"⟩]⟩

theorem identityValue_read :
    let _ : Limits := .uniform 1
    Script.ofJson (identityValue (.int 1)) = .ok identityScript ∧
      (∀ f ∈ identityScript.formulas, ∀ name ∈ f.occurrences, Formula.IsVariableName name) ∧
      (∃ verdict, identityScript.replay = .ok verdict) ∧
      ¬ ∃ s : Script Label String, s.Given (identityValue (.bool true)) ∧ s.validate = .ok () := by
  intro _
  have read : Script.ofJson (identityValue (.int 1)) = .ok identityScript := by
    with_unfolding_all rfl
  have refused : Script.ofJson (identityValue (.bool true)) =
      .error (.format (.notALabel "steps[0]" "label" (.bool true))) := by
    with_unfolding_all rfl
  obtain ⟨-, -, given, named, verdict⟩ := Script.ofJson_cases (identityValue (.int 1))
  exact ⟨read, named _ read, verdict _ ((given _).mp read).2,
    (Script.ofJson_cases _).1.mp ⟨_, refused⟩⟩

end Deduction
