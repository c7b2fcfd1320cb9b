import Deduction.Proofs.Json.Reading
import Deduction.Proofs.Script.Decoding

/-!
Scripts as texts.

A script is written as a regular Json value that holds its parts, and what is read from a text holds
only labels that can be written again. Lone surrogates are read and written like any other code
point.
-/

namespace Deduction

/-! ### Formulas -/

theorem Formula.depth_toJson (f : Formula String) : f.toJson.depth = f.height + 1 := by
  induction f with
  | var name => rfl
  | conj lhs rhs ihl ihr | disj lhs rhs ihl ihr | impl lhs rhs ihl ihr =>
      simp [toJson, Json.depth, Json.depthOfFields, height, ihl, ihr]

theorem Formula.regular_toJson (f : Formula String) : f.toJson.Regular False := by
  induction f with
  | var name => exact .obj (by simp [Ordered.Distinct]) (by simp [Json.Regular.str])
  | conj lhs rhs ihl ihr | disj lhs rhs ihl ihr | impl lhs rhs ihl ihr =>
      exact .obj (by simp [Ordered.Distinct]) (by simp [Json.Regular.str, ihl, ihr])

theorem Formula.given_toJson [Limits] {f : Formula String}
    (named : ∀ name ∈ f.occurrences, isIdentifier name = true) (low : f.height ≤ Limits.decoding) :
    f.Given f.toJson := by
  have decoded := ofJson_toJson named low
  cases f with
  | var _ | conj _ _ | disj _ _ | impl _ _ => exact .object decoded

/-! ### Steps -/

theorem Json.Regular.of_find? {reals : Prop} {fields : List (Text × Json)} {key : Text}
    {value : Json} (regular : Regular reals (.obj fields))
    (found : Ordered.find? key fields = some value) : Regular reals value := by
  cases regular with
  | obj distinct all => exact all (key, value) ((Ordered.find?_eq_some_iff distinct).mp found)

theorem Inference.exists_slot_of_label {i : Inference Text Label String} {label : Label}
    (mem : label ∈ i.labels) : ∃ key, (key, .exactly label.toJson) ∈ i.slots := by
  cases i with
  | suppose formula own =>
      obtain rfl : label = own := by simpa [Inference.labels] using mem
      exact ⟨"label", by simp [Inference.slots]⟩
  | implIntro own proof =>
      obtain rfl : label = own := by simpa [Inference.labels] using mem
      exact ⟨"label", by simp [Inference.slots]⟩
  | disjElim disjunction leftCase leftLabel rightCase rightLabel =>
      rcases List.mem_pair.mp mem with rfl | rfl
      · exact ⟨"left_label", by simp [Inference.slots]⟩
      · exact ⟨"right_label", by simp [Inference.slots]⟩
  | conjIntro _ _ | conjElim _ _ | implElim _ _ | disjIntro _ _ _ =>
      simp [Inference.labels] at mem

/-- A label that is not too long to be read back. -/
def Label.Short : Label → Prop
  | .number n => Decimal.digitCount n.natAbs ≤ Json.maxIntegerDigits
  | .name _ => True

instance : DecidablePred Label.Short
  | .number n => inferInstanceAs (Decidable (Decimal.digitCount n.natAbs ≤ Json.maxIntegerDigits))
  | .name _ => .isTrue trivial

theorem Label.regular_toJson_iff {label : Label} {reals : Prop} :
    label.toJson.Regular reals ↔ label.Short := by
  cases label with
  | number n =>
      constructor
      · rintro ⟨⟩
        assumption
      · exact .int
  | name text => exact ⟨fun _ => trivial, fun _ => .str text⟩

theorem Step.distinct_slots (s : Step Label String) :
    Ordered.Distinct (s.slots.map fun entry => (entry.1, entry.2.toJson)) := by
  obtain ⟨id, i⟩ := s
  cases i <;> simp [Ordered.Distinct, Step.slots, Inference.slots]

theorem Step.regular_toJson {s : Step Label String}
    (short : ∀ label ∈ s.inference.labels, label.Short) : s.toJson.Regular False := by
  have slots : ∀ entry ∈ s.slots, entry.2.toJson.Regular False := by
    obtain ⟨id, i⟩ := s
    simp only [← @Label.regular_toJson_iff _ False] at short
    cases i <;>
      simp_all [Step.slots, Inference.slots, Inference.labels, Slot.toJson, Json.Regular.str,
        Formula.regular_toJson]
  rw [s.toJson_eq]
  refine .obj s.distinct_slots ?_
  intro field mem
  obtain ⟨entry, listed, rfl⟩ := List.mem_map.mp mem
  exact slots entry listed

theorem Step.mem_formulas_of_slot {s : Step Label String} {key : Text} {f : Formula String}
    (mem : (key, .formula f) ∈ s.slots) : f ∈ s.inference.formulas := by
  obtain ⟨id, i⟩ := s
  cases i <;> simp_all [Step.slots, Inference.slots, Inference.formulas]

theorem Step.given_toJson [Limits] {s : Step Label String}
    (given : ∀ f ∈ s.inference.formulas, f.Given f.toJson) : s.Given s.toJson := by
  refine ⟨_, s.toJson_eq, ?_⟩
  rintro ⟨key, slot⟩ mem
  refine ⟨slot.toJson, ?_, ?_⟩
  · rw [Ordered.find?_eq_some_iff s.distinct_slots]
    exact List.mem_map.mpr ⟨(key, slot), mem, rfl⟩
  · cases slot with
    | formula f => exact given f (s.mem_formulas_of_slot mem)
    | exactly value => rfl

/-! ### Scripts -/

/-- What is asked of a script for its text to be read as the same script: nothing of its name and
ids, or of labels that are texts. -/
structure Script.Portable (s : Script Label String) : Prop where
  valid : s.validate = .ok ()
  named : ∀ f ∈ s.formulas, ∀ name ∈ f.occurrences, Formula.IsVariableName name
  short : ∀ label ∈ s.labels, label.Short

theorem Script.Portable.regular_toJson {s : Script Label String} (portable : s.Portable) :
    s.toJson.Regular False := by
  have steps : (Json.arr (s.steps.map Step.toJson)).Regular False := by
    refine .arr ?_
    intro value mem
    obtain ⟨step, listed, rfl⟩ := List.mem_map.mp mem
    apply Step.regular_toJson
    intro label mem
    exact portable.short label (List.mem_flatMap.mpr ⟨step, listed, mem⟩)
  refine .obj (by simp [Ordered.Distinct]) ?_
  simp [Json.Regular.str, Formula.regular_toJson, steps]

theorem Step.depth_lt_of_mem_formulas {s : Step Label String} {f : Formula String}
    (mem : f ∈ s.inference.formulas) : f.toJson.depth < s.toJson.depth := by
  obtain ⟨key, slot⟩ := Inference.exists_slot_of_formula mem
  have listed : (key, .formula f) ∈ s.slots := by simp [Step.slots, slot]
  rw [s.toJson_eq]
  exact @Json.depth_lt_of_mem_obj _ (key, f.toJson) (List.mem_map.mpr ⟨_, listed, rfl⟩)

/-- The formulas of a script are nested less deeply than its text. -/
theorem Script.height_lt_of_mem_formulas {s : Script Label String} {f : Formula String}
    (mem : f ∈ s.formulas) : f.height < s.toJson.depth := by
  have own := f.depth_toJson
  rcases List.mem_cons.mp mem with rfl | mem
  · have goal : s.goal.toJson.depth < s.toJson.depth :=
      @Json.depth_lt_of_mem_obj _ ("goal", s.goal.toJson) (by simp)
    omega
  · obtain ⟨step, listed, mem⟩ := List.mem_flatMap.mp mem
    have inner := Step.depth_lt_of_mem_formulas mem
    have item := Json.depth_lt_of_mem_arr (List.mem_map_of_mem (f := Step.toJson) listed)
    have steps : (Json.arr (s.steps.map Step.toJson)).depth < s.toJson.depth :=
      @Json.depth_lt_of_mem_obj _ ("steps", .arr (s.steps.map Step.toJson)) (by simp)
    omega

/-- A script that does not go too deep to be read from its text. -/
structure Script.Compact [Limits] (s : Script Label String) : Prop where
  shallow : s.toJson.depth ≤ Limits.reading
  low : ∀ f ∈ s.formulas, f.height ≤ Limits.decoding

theorem Script.Portable.given_toJson [Limits] {s : Script Label String} (portable : s.Portable)
    (compact : s.Compact) : s.Given s.toJson := by
  have given : ∀ f ∈ s.formulas, f.Given f.toJson := by
    intro f mem
    refine Formula.given_toJson ?_ (compact.low f mem)
    intro name occurs
    exact Formula.isIdentifier_iff.mpr (portable.named f mem name occurs)
  refine .object rfl rfl (given s.goal List.mem_cons_self) rfl ?_
  rw [List.forall₂_map_right_iff, List.forall₂_same]
  intro step listed
  apply Step.given_toJson
  intro f mem
  exact given f (List.mem_cons_of_mem _ (List.mem_flatMap.mpr ⟨step, listed, mem⟩))

theorem Script.load_eq_ok_iff [Limits] {text : Text} {s : Script Label String} :
    Script.load text = .ok s ↔
      ∃ value, Json.read Limits.reading text.points = .ok value ∧ Script.ofJson value = .ok s := by
  unfold Script.load
  split
  · simp_all
  · simp_all
  · rename_i value read
    cases decoded : Script.ofJson value <;> simp [read, decoded]

theorem Script.Portable.load_dump [Limits] {s : Script Label String} (portable : s.Portable)
    (compact : s.Compact) : Script.load s.dump = .ok s := by
  rw [Script.load_eq_ok_iff]
  refine ⟨s.toJson, ?_, Script.ofJson_eq_ok_iff.mpr ⟨portable.given_toJson compact, portable.valid⟩⟩
  rw [Script.dump, Json.pretty, Text.points_ofPoints]
  exact Json.read_indented portable.regular_toJson compact.shallow

theorem Script.portable_of_load [Limits] {text : Text} {s : Script Label String}
    (loaded : Script.load text = .ok s) : s.Portable := by
  obtain ⟨value, read, decoded⟩ := Script.load_eq_ok_iff.mp loaded
  obtain ⟨given, valid⟩ := Script.ofJson_eq_ok_iff.mp decoded
  refine ⟨valid, ?_, ?_⟩
  · intro f mem name occurs
    exact Formula.isIdentifier_iff.mp (given.isIdentifier f mem name occurs)
  · intro label mem
    obtain ⟨step, listed, mem⟩ := List.mem_flatMap.mp mem
    obtain ⟨key, slot⟩ := Inference.exists_slot_of_label mem
    obtain ⟨-, -, -, found, all⟩ := given
    obtain ⟨item, held, fields, rfl, filled⟩ := exists_given_of_mem all listed
    obtain ⟨_, labelled, rfl⟩ := filled (key, .exactly label.toJson) (by simp [Step.slots, slot])
    have items := (Json.regular_of_read read).of_find? found
    cases items with
    | arr regular => exact Label.regular_toJson_iff.mp ((regular _ held).of_find? labelled)

/-- Exactly the portable scripts can be stored, as long as they do not go too deep: their texts are
read as the same scripts. All scripts that are loaded are portable, whatever text they come from, so
that storing and loading them again changes nothing. -/
theorem Script.load_dump_iff_portable [Limits] (s : Script Label String) :
    (s.Compact → (Script.load s.dump = .ok s ↔ s.Portable)) ∧
      ∀ text, Script.load text = .ok s →
        s.Portable ∧ (s.Compact → Script.load s.dump = .ok s) := by
  constructor
  · intro compact
    exact ⟨Script.portable_of_load, fun portable => portable.load_dump compact⟩
  · intro text loaded
    have portable := Script.portable_of_load loaded
    exact ⟨portable, portable.load_dump⟩

def leadingHalf : Surrogate := ⟨0xD800, by decide⟩

/-- The name and the ids need escapes of every kind, and one id holds half of a pair. -/
def awkwardScript (name : String) : Script Label String :=
  ⟨"say \"p\" \\ \n\x00\x1f ✓", .impl (.var name) (.var name),
    [⟨"", .suppose (.var name) (.number (-70))⟩,
      ⟨.broken "\t\x7f" leadingHalf "𝔭", .implIntro (.number (-70)) ""⟩]⟩

theorem awkwardScript_stored :
    let _ : Limits := .uniform 4
    Script.load (awkwardScript "p'").dump = .ok (awkwardScript "p'") ∧
      (awkwardScript "p'").Portable ∧
      Script.load (awkwardScript "1st").dump ≠ .ok (awkwardScript "1st") := by
  intro _
  have compact (name : String) : (awkwardScript name).Compact := by
    have depth : (awkwardScript name).toJson.depth = 4 := rfl
    refine ⟨Nat.le_of_eq depth, fun f mem => ?_⟩
    have low := Script.height_lt_of_mem_formulas mem
    rw [depth] at low
    exact Nat.le_of_lt low
  have portable : (awkwardScript "p'").Portable := ⟨rfl, by decide, by decide⟩
  have loaded := ((Script.load_dump_iff_portable _).1 (compact "p'")).mpr portable
  refine ⟨loaded, ((Script.load_dump_iff_portable _).2 _ loaded).1, ?_⟩
  intro loaded
  have named := (((Script.load_dump_iff_portable _).1 (compact "1st")).mp loaded).named
  have first := named (awkwardScript "1st").goal List.mem_cons_self "1st" List.mem_cons_self
  exact absurd first (by decide)

/-- All of its points are characters, and the escapes in it stand for halves of pairs. -/
def escapedText : Text :=
  "\x7b\"name\": \"\\ud800\", \"goal\": \"p\", \"steps\": [\x7b\"id\": \"\\uD800\", " ++
    "\"rule\": \"suppose\", \"formula\": \"p\", \"label\": \"\\ud800\"\x7d]\x7d"

theorem exists_load_escapedText :
    let _ : Limits := .uniform 3
    ∃ s, Script.load escapedText = .ok s ∧ s.name = .broken "" leadingHalf "" ∧
      s.steps.map Step.id = [.broken "" leadingHalf ""] ∧
      s.labels = [.name (.broken "" leadingHalf "")] := by
  intro limits
  have loaded : ((@Script.load limits escapedText).toOption.map
      fun s => (s.name, s.steps.map Step.id, s.labels)) =
      some (.broken "" leadingHalf "", [.broken "" leadingHalf ""],
        [.name (.broken "" leadingHalf "")]) := by decide +kernel
  obtain ⟨s, loaded, same⟩ := Option.map_eq_some_iff.mp loaded
  refine ⟨s, ?_, ?_⟩
  · cases result : Script.load escapedText <;> simp_all [Except.toOption]
  · simpa using same

end Deduction
