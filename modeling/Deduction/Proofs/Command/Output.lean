import Deduction.Command.Run
import Deduction.Proofs.Script.Storage

/-!
Which reports can be printed.

The output takes every character, but not every surrogate. A report holds the surrogates of its
name, of its path and of the id of a step that fails, and no others. So whether it can be printed,
in words or as a Json value, depends on these texts and on how deeply its conclusion is nested.
-/

namespace Deduction

variable {passes : Surrogate → Bool}

/-! ### Texts -/

namespace Text

/-- The output takes all surrogates among some code points. -/
def Taken (passes : Surrogate → Bool) (ps : List Point) : Prop :=
  ∀ half, .lone half ∈ ps → passes half = true

def Writable (passes : Surrogate → Bool) (t : Text) : Prop := Taken passes t.points

@[simp]
theorem taken_nil : Taken passes [] := by
  simp [Taken]

@[simp]
theorem taken_char_iff {c : Char} {ps : List Point} :
    Taken passes (.char c :: ps) ↔ Taken passes ps := by
  simp [Taken]

@[simp]
theorem taken_lone_iff {half : Surrogate} {ps : List Point} :
    Taken passes (.lone half :: ps) ↔ passes half = true ∧ Taken passes ps := by
  simp [Taken]

@[simp]
theorem taken_append_iff {ps qs : List Point} :
    Taken passes (ps ++ qs) ↔ Taken passes ps ∧ Taken passes qs := by
  simp [Taken, or_imp, forall_and]

@[simp]
theorem taken_chars (cs : List Char) : Taken passes (cs.map .char) := by
  simp [Taken]

theorem taken_flatMap_iff {write : Point → List Point} {ps : List Point} :
    Taken passes (ps.flatMap write) ↔ ∀ p ∈ ps, Taken passes (write p) := by
  induction ps with
  | nil => simp
  | cons p rest ih => simp [ih]

theorem taken_iff_forall {ps : List Point} : Taken passes ps ↔ ∀ p ∈ ps, Taken passes [p] := by
  simpa using @taken_flatMap_iff passes (fun p => [p]) ps

@[simp]
theorem writable_plain (s : String) : (plain s).Writable passes := by
  simp [Writable]

@[simp]
theorem writable_append_iff {s t : Text} :
    (s ++ t).Writable passes ↔ s.Writable passes ∧ t.Writable passes := by
  simp [Writable]

theorem writable_intercalate_iff {separator : String} {texts : List Text} :
    (intercalate separator texts).Writable passes ↔ ∀ t ∈ texts, t.Writable passes := by
  induction texts with
  | nil => simp [intercalate]
  | cons t rest ih =>
      cases rest with
      | nil => simp [intercalate]
      | cons next rest =>
          rw [intercalate_cons_of_ne_nil (by simp), writable_append_iff, ih]
          simp

theorem Utf8.unwritable?_eq_none_iff {t : Text} :
    unwritable? passes t = none ↔ t.Writable passes := by
  have all (position : Nat) (ps : List Point) :
      unwritableFrom? passes position ps = none ↔ Taken passes ps := by
    induction ps generalizing position with
    | nil => simp [unwritableFrom?]
    | cons p rest ih =>
        cases p with
        | char c => simp [unwritableFrom?, ih]
        | lone half =>
            by_cases taken : passes half = true <;> simp [unwritableFrom?, taken, ih]
  exact all 0 t.points

end Text

/-! ### Json values -/

namespace Json

open Text (Taken)

mutual

/-- The texts in a value: its strings and the keys of its objects. -/
def texts : Json → List Text
  | .str value => [value]
  | .arr items => textsOfItems items
  | .obj fields => textsOfFields fields
  | _ => []

def textsOfItems : List Json → List Text
  | [] => []
  | item :: rest => item.texts ++ textsOfItems rest

def textsOfFields : List (Text × Json) → List Text
  | [] => []
  | (key, value) :: rest => key :: value.texts ++ textsOfFields rest

end

@[simp]
theorem taken_writtenText_iff {t : Text} : Taken passes (writtenText t) ↔ t.Writable passes := by
  have point (p : Point) : Taken passes (writtenPoint p) ↔ Taken passes [p] := by
    cases p with
    | char c =>
        refine iff_of_true ?_ (by simp)
        unfold writtenPoint
        split_ifs <;> simp
    | lone half =>
        have shown : ¬half.code < 0x20 := by
          have inRange := half.inRange
          omega
        simp [writtenPoint, Point.code, shown]
  simp only [writtenText, List.cons_append, Text.taken_char_iff, Text.taken_append_iff,
    Text.taken_flatMap_iff, point, Text.taken_nil, and_true, Text.Writable]
  exact Text.taken_iff_forall.symm

@[simp]
theorem taken_newline (level : Nat) : Taken passes (newline level) := by
  simp [newline, Taken, List.mem_replicate]

theorem taken_indentedItems_iff {items : List Json} {level : Nat}
    (all : ∀ item ∈ items,
      Taken passes (indented level item) ↔ ∀ t ∈ item.texts, t.Writable passes) :
    Taken passes (indentedItems level items) ↔ ∀ t ∈ textsOfItems items, t.Writable passes := by
  induction items with
  | nil => simp [indentedItems, textsOfItems]
  | cons item rest ih =>
      obtain ⟨first, others⟩ := List.forall_mem_cons.mp all
      rw [textsOfItems, List.forall_mem_append, ← first, ← ih others]
      cases rest <;> simp [indentedItems]

theorem taken_indentedFields_iff {fields : List (Text × Json)} {level : Nat}
    (all : ∀ field ∈ fields,
      Taken passes (indented level field.2) ↔ ∀ t ∈ field.2.texts, t.Writable passes) :
    Taken passes (indentedFields level fields) ↔ ∀ t ∈ textsOfFields fields, t.Writable passes := by
  induction fields with
  | nil => simp [indentedFields, textsOfFields]
  | cons field rest ih =>
      obtain ⟨key, value⟩ := field
      obtain ⟨first, others⟩ := List.forall_mem_cons.mp all
      rw [textsOfFields, List.cons_append, List.forall_mem_cons, List.forall_mem_append, ← first,
        ← ih others]
      cases rest <;> simp [indentedFields]

/-- A written value has the surrogates of its texts. -/
theorem writable_pretty_iff {reals : Prop} {value : Json} (regular : Regular reals value) :
    value.pretty.Writable passes ↔ ∀ t ∈ value.texts, t.Writable passes := by
  rw [pretty, Text.Writable, Text.points_ofPoints]
  generalize 0 = level
  induction regular generalizing level with
  | null => simp [indented, writtenScalar, texts]
  | bool value => cases value <;> simp [indented, writtenScalar, texts]
  | int _ => simp [indented, writtenScalar, texts]
  | real _ value =>
      cases value with
      | nan => simp [indented, writtenScalar, texts, writtenReal]
      | infinite negative => cases negative <;> simp [indented, writtenScalar, texts, writtenReal]
      | finite negative mantissa exponent => simp [indented, writtenScalar, texts, writtenReal]
  | str value => simp [indented, writtenScalar, texts]
  | @arr items _ ih =>
      cases items with
      | nil => simp [indented, texts, textsOfItems]
      | cons item rest =>
          have inner := taken_indentedItems_iff fun item mem => ih item mem (level + 1)
          simpa [indented, texts] using inner
  | @obj fields _ _ ih =>
      cases fields with
      | nil => simp [indented, texts, textsOfFields]
      | cons field rest =>
          have inner := taken_indentedFields_iff fun field mem => ih field mem (level + 1)
          simpa [indented, texts] using inner

end Json

theorem Formula.writable_texts_toJson (f : Formula String) :
    ∀ t ∈ f.toJson.texts, t.Writable passes := by
  induction f with
  | var name => simp [toJson, Json.texts, Json.textsOfFields]
  | conj lhs rhs ihl ihr | disj lhs rhs ihl ihr | impl lhs rhs ihl ihr =>
      simpa [toJson, Json.texts, Json.textsOfFields, or_imp, forall_and] using ⟨ihl, ihr⟩

/-! ### Reports -/

theorem Proof.render_sequent_of_closed {p : Proof Label String} (closed : p.assumptions = .empty)
    (symbols : Symbols) :
    p.sequent.render symbols =
      .plain (symbols.turnstile ++ " " ++ p.conclusion.render symbols) := by
  have none : p.sequent.hypotheses = [] := by
    simp [Proof.sequent, closed, Assumptions.empty]
  rw [Sequent.render, none]
  rfl

namespace Report

def stepId? (r : Report) : Option Text :=
  match r.verdict with
  | .ok _ => none
  | .error failure => failure.stepId?

/-- The texts that a report takes from a script and from its place. -/
def texts (r : Report) : List Text := r.script :: (r.source.toList ++ r.stepId?.toList)

/-- What is told as proved is told without hypotheses. -/
def Closed (r : Report) : Prop := ∀ p, r.verdict = .ok p → p.assumptions = .empty

theorem writable_heading_iff {r : Report} :
    r.heading.Writable passes ↔ r.script.Writable passes ∧ ∀ t ∈ r.source, t.Writable passes := by
  obtain ⟨script, source, goal, verdict⟩ := r
  cases source with
  | none => simp [heading]
  | some source =>
      simp only [heading, Option.mem_def, Option.some.injEq, forall_eq']
      split
      · rename_i empty
        simp [Text.isEmpty_iff.mp empty]
      · simp

theorem writable_location_iff {failure : Failure Label String} :
    (location failure).Writable passes ↔ ∀ t ∈ failure.stepId?, t.Writable passes := by
  cases stopped : failure.stepId? with
  | none => simp [location, stopped]
  | some id =>
      simp only [location, stopped, Option.mem_def, Option.some.injEq, forall_eq']
      split
      · rename_i empty
        simp [Text.isEmpty_iff.mp empty]
      · simp

theorem writable_text_iff {r : Report} (closed : r.Closed) (ascii : Bool) :
    (r.text ascii).Writable passes ↔ ∀ t ∈ r.texts, t.Writable passes := by
  rw [text, Text.writable_intercalate_iff, lines, List.forall_mem_cons, writable_heading_iff, texts,
    List.forall_mem_cons, List.forall_mem_append, and_assoc]
  obtain ⟨script, source, goal, verdict⟩ := r
  cases verdict with
  | ok p =>
      have shown := Proof.render_sequent_of_closed (closed p rfl) (.select ascii)
      simp [stepId?, shown]
  | error failure => simp [stepId?, writable_location_iff]

theorem regular_textOrNull (t : Option Text) : (textOrNull t).Regular False := by
  cases t with
  | none => exact .null
  | some t => exact .str t

theorem texts_textOrNull (t : Option Text) : (textOrNull t).texts = t.toList := by
  cases t <;> rfl

theorem regular_toJson (r : Report) : r.toJson.Regular False := by
  obtain ⟨script, source, goal, verdict⟩ := r
  refine .obj (by simp [Ordered.Distinct]) ?_
  cases verdict with
  | ok p =>
      simp [regular_textOrNull, Formula.regular_toJson, Json.Regular.str, Json.Regular.null,
        Json.Regular.bool]
  | error failure =>
      have told : Json.Regular False (.obj [("step", textOrNull failure.stepId?),
          ("rule", .str failure.rule), ("error", .str failure.error.kind),
          ("message", .str failure.error.message)]) :=
        .obj (by simp [Ordered.Distinct]) (by simp [regular_textOrNull, Json.Regular.str])
      simp [regular_textOrNull, told, Json.Regular.str, Json.Regular.null, Json.Regular.bool]

theorem writable_texts_toJson_iff {r : Report} :
    (∀ t ∈ r.toJson.texts, t.Writable passes) ↔ ∀ t ∈ r.texts, t.Writable passes := by
  obtain ⟨script, source, goal, verdict⟩ := r
  cases verdict with
  | ok p =>
      have conclusion (_ : script.Writable passes) (_ : ∀ t, source = some t → t.Writable passes) :=
        @p.conclusion.writable_texts_toJson passes
      simpa [toJson, Json.texts, Json.textsOfFields, texts_textOrNull, texts, stepId?, or_imp,
        forall_and] using conclusion
  | error failure =>
      simp [toJson, Json.texts, Json.textsOfFields, texts_textOrNull, texts, stepId?, or_imp,
        forall_and]

/-- The reports as one value have the surrogates of their texts. -/
theorem writable_pretty_iff {reports : List Report} :
    (Json.arr (reports.map toJson)).pretty.Writable passes ↔
      ∀ r ∈ reports, ∀ t ∈ r.texts, t.Writable passes := by
  have regular : (Json.arr (reports.map toJson)).Regular False := by
    refine .arr ?_
    intro item mem
    obtain ⟨r, -, rfl⟩ := List.mem_map.mp mem
    exact r.regular_toJson
  rw [Json.writable_pretty_iff regular, Json.texts]
  clear regular
  induction reports with
  | nil => simp [Json.textsOfItems]
  | cons r rest ih =>
      rw [List.map_cons, Json.textsOfItems, List.forall_mem_append, List.forall_mem_cons]
      exact and_congr writable_texts_toJson_iff ih

/-- A report can be printed. -/
structure Printable [Limits] (world : World) (json : Bool) (r : Report) : Prop where
  low : r.exceeds (if json then Limits.encoding else Limits.reporting) = false
  writable : ∀ t ∈ r.texts, t.Writable world.prints

end Report

/-! ### Printing -/

namespace Command

variable {world : World}

/-- Reports in print: one object for each of them in a list, or one block of lines. -/
def shown (mode : Mode) (json : Bool) (reports : List Report) : List Text :=
  if json then [(Json.arr (reports.map Report.toJson)).pretty]
  else reports.flatMap fun report => report.lines mode.ascii

/-- Why reports cannot be printed. -/
inductive Abort.FromPrinting : Abort → Prop
  | tooDeep : FromPrinting .tooDeep
  | unprintable (error : Text.Utf8.Unwritable) : FromPrinting (.unprintable error)

theorem printedText_of_printable [Limits] {r : Report} (closed : r.Closed)
    (printable : r.Printable world false) (mode : Mode) :
    printedText world mode r = .ok (r.lines mode.ascii) := by
  have low : r.exceeds Limits.reporting = false := printable.low
  have taken := Text.Utf8.unwritable?_eq_none_iff.mpr
    ((Report.writable_text_iff closed mode.ascii).mpr printable.writable)
  simp [printedText, low, taken]

theorem exists_printedText_of_not [Limits] {r : Report} (closed : r.Closed)
    (hindered : ¬r.Printable world false) (mode : Mode) :
    ∃ reason, reason.FromPrinting ∧ printedText world mode r = .error reason := by
  cases deep : r.exceeds Limits.reporting with
  | true => exact ⟨_, .tooDeep, by simp [printedText, deep]⟩
  | false =>
      cases taken : Text.Utf8.unwritable? world.prints (r.text mode.ascii) with
      | some e => exact ⟨_, .unprintable e, by simp [printedText, deep, taken]⟩
      | none =>
          have writable := (Report.writable_text_iff closed mode.ascii).mp
            (Text.Utf8.unwritable?_eq_none_iff.mp taken)
          exact absurd ⟨deep, writable⟩ hindered

theorem printedJson_of_printable [Limits] {reports : List Report}
    (printable : ∀ r ∈ reports, r.Printable world true) (mode : Mode) :
    printedJson world reports = .ok (shown mode true reports) := by
  have low : (reports.any fun r => r.exceeds Limits.encoding) = false := by
    simpa using fun r mem => (printable r mem).low
  have taken := Text.Utf8.unwritable?_eq_none_iff.mpr
    (Report.writable_pretty_iff.mpr fun r mem => (printable r mem).writable)
  simp [printedJson, low, taken, shown]

theorem exists_printedJson_of_not [Limits] {reports : List Report}
    (hindered : ¬∀ r ∈ reports, r.Printable world true) :
    ∃ reason, reason.FromPrinting ∧ printedJson world reports = .error reason := by
  cases deep : reports.any fun r => r.exceeds Limits.encoding with
  | true => exact ⟨_, .tooDeep, by simp [printedJson, deep]⟩
  | false =>
      cases taken : Text.Utf8.unwritable? world.prints
          (Json.arr (reports.map Report.toJson)).pretty with
      | some e => exact ⟨_, .unprintable e, by simp [printedJson, deep, taken]⟩
      | none =>
          have writable :=
            Report.writable_pretty_iff.mp (Text.Utf8.unwritable?_eq_none_iff.mp taken)
          have low := List.any_eq_false.mp deep
          refine absurd (fun r mem => ⟨?_, writable r mem⟩) hindered
          exact Bool.eq_false_iff.mpr (low r mem)

/-- Reports are printed one after another if all of them can be. -/
theorem printAll_of_printable [Limits] {reports : List Report} (closed : ∀ r ∈ reports, r.Closed)
    {json : Bool} (printable : ∀ r ∈ reports, r.Printable world json) (mode : Mode) :
    printAll (printed world mode json reports) = (shown mode json reports, none) := by
  cases json with
  | true => simp [printed, printAll, printedJson_of_printable printable mode]
  | false =>
      simp only [printed, Bool.false_eq_true, if_false, shown]
      induction reports with
      | nil => rfl
      | cons r rest ih =>
          obtain ⟨first, others⟩ := List.forall_mem_cons.mp printable
          obtain ⟨closedFirst, closedOthers⟩ := List.forall_mem_cons.mp closed
          simp [printAll, printedText_of_printable closedFirst first, ih closedOthers others]

/-- The first report that cannot be printed ends the program. As Json values none are printed then,
and in words only those before it. -/
theorem exists_printAll_of_not [Limits] {before after : List Report} {r : Report}
    (closed : ∀ r' ∈ before ++ r :: after, r'.Closed) {json : Bool}
    (printable : ∀ r' ∈ before, r'.Printable world json) (hindered : ¬r.Printable world json)
    (mode : Mode) :
    ∃ reason, reason.FromPrinting ∧ printAll (printed world mode json (before ++ r :: after)) =
      (if json then [] else shown mode false before, some reason) := by
  cases json with
  | true =>
      have some : ¬∀ r' ∈ before ++ r :: after, r'.Printable world true :=
        fun all => hindered (all r (by simp))
      obtain ⟨reason, refusal, failed⟩ := exists_printedJson_of_not some
      exact ⟨reason, refusal, by simp [printed, printAll, failed]⟩
  | false =>
      obtain ⟨reason, refusal, failed⟩ :=
        exists_printedText_of_not (closed r (by simp)) hindered mode
      refine ⟨reason, refusal, ?_⟩
      simp only [printed, Bool.false_eq_true, if_false, shown]
      induction before with
      | nil => simp [printAll, failed]
      | cons first rest ih =>
          obtain ⟨own, others⟩ := List.forall_mem_cons.mp printable
          obtain ⟨closedFirst, closedOthers⟩ := List.forall_mem_cons.mp closed
          have told := printedText_of_printable closedFirst own mode
          simp only [List.cons_append, List.map_cons, printAll, told, ih closedOthers others,
            List.flatMap_cons]

/-- Either all members of a list have a property, or there is a first one that has not. -/
theorem forall_or_exists_first {α : Type} (P : α → Prop) (xs : List α) :
    (∀ x ∈ xs, P x) ∨
      ∃ before x after, xs = before ++ x :: after ∧ (∀ y ∈ before, P y) ∧ ¬P x := by
  induction xs with
  | nil => simp
  | cons x rest ih =>
      by_cases first : P x
      · rcases ih with others | ⟨before, y, after, rfl, others, fails⟩
        · exact .inl (List.forall_mem_cons.mpr ⟨first, others⟩)
        · exact .inr ⟨x :: before, y, after, rfl, List.forall_mem_cons.mpr ⟨first, others⟩, fails⟩
      · exact .inr ⟨[], x, rest, rfl, by simp, first⟩

end Command

end Deduction
