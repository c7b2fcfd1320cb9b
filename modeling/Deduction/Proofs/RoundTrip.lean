import Deduction.Formula.Printer
import Deduction.Proofs.Grammar

/-!
Printing formulas and reading them back.

The strengths that the printer asks for are the levels of the grammar: at every level the printed
text yields tokens that spell the formula at that level, with parentheses where it is weaker.
-/

namespace Deduction.Formula

/-! ### Names -/

/-- A letter or an underscore, followed by letters, digits, underscores and primes. -/
def IsVariableName (name : String) : Prop :=
  ∃ c rest, name.toList = c :: rest ∧ (c.isAlpha ∨ c = '_') ∧
    ∀ d ∈ rest, d.isAlphanum ∨ d = '_' ∨ d = '\''

theorem isNameStart_iff {c : Char} : isNameStart c = true ↔ c.isAlpha ∨ c = '_' := by
  have letter : c.isAlpha = (decide (65 ≤ c.val ∧ c.val ≤ 90) || (97 ≤ c.val && c.val ≤ 122)) := rfl
  simp [isNameStart, letter, Char.le_def]

theorem isNamePart_iff {c : Char} :
    isNamePart c = true ↔ c.isAlphanum ∨ c = '_' ∨ c = '\'' := by
  have letterOrDigit : c.isAlphanum = (c.isAlpha || (48 ≤ c.val && c.val ≤ 57)) := rfl
  simp [isNamePart, isNameStart_iff, letterOrDigit, Char.le_def, or_assoc, or_left_comm]

theorem isIdentifier_iff {name : String} : isIdentifier name = true ↔ IsVariableName name := by
  unfold isIdentifier IsVariableName
  cases name.toList with
  | nil => simp [isName]
  | cons c rest => simp [isName, isNameStart_iff, isNamePart_iff]

instance (name : String) : Decidable (IsVariableName name) :=
  decidable_of_iff _ isIdentifier_iff

/-! ### Levels -/

def Level.strength : Level → Nat
  | .formula => 1
  | .disjunction => 2
  | .conjunction => 3
  | .operand => 4

theorem Level.strength_le (level : Level) : level.strength ≤ Level.operand.strength := by
  cases level <;> decide

/-- The parentheses that a formula may need at a level. -/
def Level.margin : Level → Nat
  | .formula => 0
  | .disjunction | .conjunction | .operand => 1

theorem SpellsWithin.weaken {room : Nat} {level weaker : Level} {ts : List Token}
    {f : Formula String} (within : SpellsWithin room level ts f)
    (le : weaker.strength ≤ level.strength) : SpellsWithin room weaker ts f := by
  have conjunction (le : 3 ≤ level.strength) : SpellsWithin room .conjunction ts f := by
    cases level with
    | operand => exact .operand within
    | conjunction => exact within
    | disjunction | formula => exact absurd le (by decide)
  have disjunction (le : 2 ≤ level.strength) : SpellsWithin room .disjunction ts f := by
    cases level with
    | operand | conjunction => exact .conjunction (conjunction (by decide))
    | disjunction => exact within
    | formula => exact absurd le (by decide)
  cases weaker with
  | operand =>
      cases level with
      | operand => exact within
      | conjunction | disjunction | formula => exact absurd le (by decide)
  | conjunction => exact conjunction le
  | disjunction => exact disjunction le
  | formula =>
      cases level with
      | operand | conjunction | disjunction => exact .disjunction (disjunction (by decide))
      | formula => exact within

/-! ### Printed texts -/

theorem lexes_enclosed {room : Nat} {text : String} {f : Formula String}
    (lexes : Lexes text.toList (SpellsWithin room .formula · f)) :
    Lexes ("(" ++ text ++ ")").toList (SpellsWithin (room + 1) .operand · f) := by
  have enclosed : ("(" ++ text ++ ")").toList = '(' :: (text.toList ++ [')']) := by simp
  rw [enclosed]
  refine lexes.enclose.mono ?_
  rintro _ ⟨l, ts, r, rfl, opening, within, closing⟩
  exact .paren opening within closing

theorem lexes_parenthesize {room : Nat} {own : Level} {text : String} {f : Formula String}
    (lexes : Lexes text.toList (SpellsWithin room own · f)) (level : Level) :
    Lexes (parenthesize (own.strength < level.strength) text).toList
      (SpellsWithin (room + level.margin) level · f) := by
  by_cases weak : own.strength < level.strength
  · have margin : level.margin = 1 := by
      cases level with
      | formula => cases own <;> exact absurd weak (by decide)
      | disjunction | conjunction | operand => rfl
    have inner : Lexes text.toList (SpellsWithin room .formula · f) :=
      lexes.mono fun ts within => within.weaken (by cases own <;> decide)
    rw [parenthesize, if_pos (by simpa using weak), margin]
    exact (lexes_enclosed inner).mono fun ts within => within.weaken level.strength_le
  · rw [parenthesize, if_neg (by simpa using weak)]
    refine lexes.mono fun ts within => ?_
    exact (within.weaken (Nat.not_lt.mp weak)).mono (Nat.le_add_right _ _)

/-- Printed operands make a printed formula if their tokens do, which is to be seen from the rule of
the grammar for their connective. -/
theorem lexes_connective {own left right : Level} {roomLeft roomRight room : Nat}
    {kind : TokenKind} {lhs mark rhs : String} {f g joined : Formula String}
    (marks : Marks kind mark.toList)
    (rule : ∀ {us t vs}, SpellsWithin roomLeft left us f → t.kind = kind →
      SpellsWithin roomRight right vs g → SpellsWithin room own (us ++ t :: vs) joined)
    (ihl : Lexes lhs.toList (SpellsWithin roomLeft left · f))
    (ihr : Lexes rhs.toList (SpellsWithin roomRight right · g)) :
    Lexes (lhs ++ " " ++ mark ++ " " ++ rhs).toList (SpellsWithin room own · joined) := by
  have text : (lhs ++ " " ++ mark ++ " " ++ rhs).toList =
      lhs.toList ++ ' ' :: (mark.toList ++ ' ' :: rhs.toList) := by
    simp
  rw [text]
  refine (ihl.join marks ihr).mono ?_
  rintro _ ⟨us, t, vs, rfl, formedLeft, connective, formedRight⟩
  exact rule formedLeft connective formedRight

/-- The connectives are spelled as the tokenizer knows them. -/
structure Legible (symbols : Symbols) : Prop where
  conj : Marks .and symbols.conj.toList
  disj : Marks .or symbols.disj.toList
  impl : Marks .impl symbols.impl.toList

theorem legible_select (ascii : Bool) : Legible (.select ascii) := by
  cases ascii with
  | false => exact ⟨⟨rfl, fun _ => rfl⟩, ⟨rfl, fun _ => rfl⟩, ⟨rfl, fun _ => rfl⟩⟩
  | true => exact ⟨⟨rfl, fun _ => rfl⟩, ⟨rfl, fun _ => rfl⟩, ⟨rfl, fun _ => rfl⟩⟩

/-- A printed formula needs no more room than it is high, or one more where it may stand in
parentheses. -/
theorem lexes_renderAt {symbols : Symbols} (legible : Legible symbols) {f : Formula String}
    (named : ∀ name ∈ f.occurrences, isIdentifier name = true) (level : Level) :
    Lexes (f.renderAt symbols level.strength).toList
      (SpellsWithin (f.height + level.margin) level · f) := by
  induction f generalizing level with
  | var name =>
      have identifier := named name (by simp [occurrences])
      refine (lexes_name identifier).mono ?_
      rintro _ ⟨column, rfl⟩
      exact (SpellsWithin.name rfl).weaken level.strength_le
  | conj lhs rhs ihl ihr =>
      have left := ihl (fun name mem => named name (List.mem_append_left _ mem)) .conjunction
      have right := ihr (fun name mem => named name (List.mem_append_right _ mem)) .operand
      have rule {us : List Token} {t : Token} {vs : List Token}
          (before : SpellsWithin (lhs.height + 1) .conjunction us lhs) (and : t.kind = .and)
          (after : SpellsWithin (rhs.height + 1) .operand vs rhs) :
          SpellsWithin (conj lhs rhs).height .conjunction (us ++ t :: vs) (conj lhs rhs) :=
        .conj (before.mono (Nat.succ_le_succ (Nat.le_max_left _ _))) and
          (after.mono (Nat.succ_le_succ (Nat.le_max_right _ _)))
      exact lexes_parenthesize (lexes_connective legible.conj rule left right) level
  | disj lhs rhs ihl ihr =>
      have left := ihl (fun name mem => named name (List.mem_append_left _ mem)) .disjunction
      have right := ihr (fun name mem => named name (List.mem_append_right _ mem)) .conjunction
      have rule {us : List Token} {t : Token} {vs : List Token}
          (before : SpellsWithin (lhs.height + 1) .disjunction us lhs) (or : t.kind = .or)
          (after : SpellsWithin (rhs.height + 1) .conjunction vs rhs) :
          SpellsWithin (disj lhs rhs).height .disjunction (us ++ t :: vs) (disj lhs rhs) :=
        .disj (before.mono (Nat.succ_le_succ (Nat.le_max_left _ _))) or
          (after.mono (Nat.succ_le_succ (Nat.le_max_right _ _)))
      exact lexes_parenthesize (lexes_connective legible.disj rule left right) level
  | impl lhs rhs ihl ihr =>
      have left := ihl (fun name mem => named name (List.mem_append_left _ mem)) .disjunction
      have right := ihr (fun name mem => named name (List.mem_append_right _ mem)) .formula
      have rule {us : List Token} {t : Token} {vs : List Token}
          (before : SpellsWithin (lhs.height + 1) .disjunction us lhs) (arrow : t.kind = .impl)
          (after : SpellsWithin rhs.height .formula vs rhs) :
          SpellsWithin (impl lhs rhs).height .formula (us ++ t :: vs) (impl lhs rhs) :=
        .impl (before.mono (Nat.succ_le_succ (Nat.le_max_left _ _))) arrow
          (after.mono (Nat.le_max_right _ _))
      exact lexes_parenthesize (lexes_connective legible.impl rule left right) level

theorem render_eq_renderAt_formula (symbols : Symbols) (f : Formula String) :
    f.render symbols = f.renderAt symbols Level.formula.strength := by
  cases f <;> rfl

theorem lexes_render {symbols : Symbols} (legible : Legible symbols) {f : Formula String}
    (named : ∀ name ∈ f.occurrences, isIdentifier name = true) :
    Lexes (f.render symbols).toList (SpellsWithin f.height .formula · f) := by
  rw [render_eq_renderAt_formula]
  exact lexes_renderAt legible named .formula

/-- A limit on nesting does not matter to texts that need no more room. -/
theorem Lexes.parseWithin {limit room : Nat} {text : String} {f : Formula String}
    (lexes : Lexes text.toList (SpellsWithin room .formula · f)) (le : room ≤ limit) :
    parseWithin limit text = .ok f := by
  obtain ⟨ts, within, lexed⟩ := lexes 1 [] (by simp [Separate])
  have tokens : tokenize text = .ok ts := by
    simpa [tokenize, tokensFrom, Except.map] using lexed
  simpa [Formula.parseWithin, tokens] using within.run le _

theorem parseAny_render {symbols : Symbols} (legible : Legible symbols) {f : Formula String}
    (named : ∀ name ∈ f.occurrences, isIdentifier name = true) :
    parseAny (f.render symbols) = .ok f :=
  parseAny_of_parseWithin ((lexes_render legible named).parseWithin (Nat.le_refl _))

theorem isIdentifier_of_parseAny {text : String} {f : Formula String}
    (read : parseAny text = .ok f) : ∀ name ∈ f.occurrences, isIdentifier name = true := by
  intro name mem
  obtain ⟨ts, lexed, spells⟩ := parseAny_eq_ok_iff.mp read
  rw [spells.occurrences_eq] at mem
  obtain ⟨t, listed, ident, rfl⟩ := mem_identifiers.mp mem
  exact isIdentifier_of_mem_tokensFrom lexed listed ident

/-- Formulas can be read back exactly if their variables have names. All formulas that are read have
such variables, so what is printed of them is read as the same formula. A limit on nesting is the
only exception, and none for texts that are not longer than it. -/
theorem parseAny_render_iff [Limits] (ascii : Bool) (f : Formula String) :
    (parseAny (f.render (.select ascii)) = .ok f ↔ ∀ name ∈ f.occurrences, IsVariableName name) ∧
    (∀ text g, parseAny text = .ok g → (∀ name ∈ g.occurrences, IsVariableName name) ∧
      parseAny (g.render (.select ascii)) = .ok g) ∧
    ∀ text, (∀ column, parseAny text ≠ .error (.tooDeep column)) ∧
      (parse text = parseAny text ∨
        Limits.parsing < text.length ∧ ∃ column, parse text = .error (.tooDeep column)) := by
  simp only [← isIdentifier_iff]
  refine ⟨⟨isIdentifier_of_parseAny, parseAny_render (legible_select ascii)⟩, ?_, ?_⟩
  · intro text g read
    have named := isIdentifier_of_parseAny read
    exact ⟨named, parseAny_render (legible_select ascii) named⟩
  · intro text
    exact ⟨parseAny_ne_tooDeep text, parseWithin_eq_or_tooDeep Limits.parsing text⟩

/-- Both operands need parentheses, for different reasons. -/
def grouped : Formula String :=
  .impl (.impl (.var "p") (.var "q'")) (.conj (.disj (.var "_r") (.var "s1")) (.var "t"))

theorem grouped_reads_back :
    grouped.render (.select true) = "(p -> q') -> (_r | s1) & t" ∧
      parseAny (grouped.render (.select true)) = .ok grouped ∧
      parseAny ((var "1st").render (.select false)) ≠ .ok (var "1st") := by
  refine ⟨rfl, (@parseAny_render_iff (.uniform 0) true grouped).1.mpr ?_, ?_⟩
  · intro name mem
    have listed : ∀ name ∈ grouped.occurrences, isIdentifier name = true := by decide
    exact isIdentifier_iff.mp (listed name mem)
  · intro read
    have named :=
      (@parseAny_render_iff (.uniform 0) false (var "1st")).1.mp read "1st" (by simp [occurrences])
    exact absurd (isIdentifier_iff.mpr named) (by decide)

end Deduction.Formula
