import Mathlib.Data.List.Basic
import Deduction.Json.Token
import Deduction.Json.Writer
import Deduction.Proofs.Text

/-!
The tokens of written Json values.

Strings end at their closing quotes, and all other tokens but numbers end by themselves. A number
ends where the text that follows cannot go on with it.
-/

namespace Deduction.Json

/-! ### Strings -/

theorem hexValue?_digitChar {n : Nat} (small : n < 16) : hexValue? (Nat.digitChar n) = some n := by
  have all : ∀ n < 16, hexValue? (Nat.digitChar n) = some n := by decide
  exact all n small

/-- Four digits give back the number that they are written for, if more text follows. -/
theorem hexUnit?_hexDigits {n : Nat} (small : n < 0x10000) {rest : List Point} (more : rest ≠ []) :
    hexUnit? ((Text.hexDigits 4 n).map .char ++ rest) = some n := by
  obtain ⟨c, cs, rfl⟩ := List.exists_cons_of_ne_nil more
  have digits : Text.hexDigits 4 n =
      [Nat.digitChar (n / 16 / 16 / 16 % 16), Nat.digitChar (n / 16 / 16 % 16),
        Nat.digitChar (n / 16 % 16), Nat.digitChar (n % 16)] := rfl
  have value : ((n / 16 / 16 / 16 % 16 * 16 + n / 16 / 16 % 16) * 16 + n / 16 % 16) * 16 + n % 16 =
      n := by omega
  rw [digits]
  simp [hexUnit?, hexValue?_digitChar (Nat.mod_lt _ (by decide : 0 < 16)), value]

theorem unitPoint_code (p : Point) : unitPoint p.code = p := by
  cases p with
  | char c =>
      have outside : ¬(0xD800 ≤ c.toNat ∧ c.toNat < 0xE000) :=
        fun inRange => Text.code_ne_toNat ⟨c.toNat, inRange⟩ c rfl
      simp [unitPoint, Point.code, outside, Char.ofNat_toNat]
  | lone half => simp [unitPoint, Point.code, half.inRange]

theorem unicodeEscape?_hexDigits {p : Point} (control : p.code < 0x20) {rest : List Point}
    (more : rest ≠ []) :
    unicodeEscape? ((Text.hexDigits 4 p.code).map .char ++ rest) = some (p, 4) := by
  have unit := hexUnit?_hexDigits (Nat.lt_trans control (by decide)) more
  have low : isHighSurrogate p.code = false := by
    simp only [isHighSurrogate, Bool.and_eq_false_iff, decide_eq_false_iff_not]
    omega
  unfold unicodeEscape?
  rw [unit]
  simp only [Option.bind_eq_bind, Option.bind_some, low, unitPoint_code]
  split <;> rfl

theorem scanText_short {e : Point} {c : Char} (short : shortEscape? e = some c) (offset : Nat)
    (done rest : List Point) :
    scanText offset done (.char '\\' :: e :: rest) =
      scanText (offset + 2) (.char c :: done) rest := by
  have single : e ≠ .char 'u' := by
    rintro rfl
    cases short
  rw [scanText]
  simp [single, short]

theorem scanText_control {p : Point} (control : p.code < 0x20) (offset : Nat) (done : List Point)
    {rest : List Point} (more : rest ≠ []) :
    scanText offset done (.char '\\' :: .char 'u' :: (Text.hexDigits 4 p.code).map .char ++ rest) =
      scanText (offset + 6) (p :: done) rest := by
  have digits : ((Text.hexDigits 4 p.code).map Point.char).length = 4 := rfl
  rw [List.cons_append, List.cons_append, scanText]
  simp only [unicodeEscape?_hexDigits control more, List.drop_left' digits]
  simp [Nat.add_assoc]

/-- A code point is written with a short escape, as a code, or plainly. -/
theorem writtenPoint_cases (p : Point) :
    (∃ e c, shortEscape? e = some c ∧ p = .char c ∧ writtenPoint p = [.char '\\', e]) ∨
      (p.code < 0x20 ∧ writtenPoint p =
        .char '\\' :: .char 'u' :: (Text.hexDigits 4 p.code).map .char) ∨
      p ≠ .char '"' ∧ p ≠ .char '\\' ∧ ¬p.code < 0x20 ∧ writtenPoint p = [p] := by
  generalize written : writtenPoint p = text
  unfold writtenPoint at written
  split_ifs at written with quote backslash newline carriage tab backspace feed control
  iterate 7
    · subst p
      exact .inl ⟨_, _, by rfl, rfl, written.symm⟩
  · exact .inr (.inl ⟨control, written.symm⟩)
  · exact .inr (.inr ⟨quote, backslash, control, written.symm⟩)

/-- What is written for a code point is read as that code point, if more text follows. -/
theorem scanText_writtenPoint (p : Point) (offset : Nat) (done : List Point) {rest : List Point}
    (more : rest ≠ []) :
    scanText offset done (writtenPoint p ++ rest) =
      scanText (offset + (writtenPoint p).length) (p :: done) rest := by
  rcases writtenPoint_cases p with
    ⟨e, c, short, rfl, written⟩ | ⟨control, written⟩ | ⟨quote, backslash, visible, written⟩
  · rw [written]
    exact scanText_short short offset done rest
  · rw [written]
    exact scanText_control control offset done more
  · rw [written, List.singleton_append, scanText.eq_def]
    simp [quote, backslash, visible]

theorem scanText_written (ps : List Point) (offset : Nat) (done rest : List Point) :
    scanText offset done (ps.flatMap writtenPoint ++ .char '"' :: rest) =
      .ok (done.reverse ++ ps, offset + (ps.flatMap writtenPoint).length + 1) := by
  induction ps generalizing offset done with
  | nil =>
      rw [List.flatMap_nil, List.nil_append, scanText.eq_def]
      simp
  | cons p ps ih =>
      rw [List.flatMap_cons, List.append_assoc, scanText_writtenPoint p offset done (by simp), ih]
      simp [Nat.add_assoc]

/-! ### Numbers -/

/-- Whether a number may go on with a code point. -/
def goesOn : Point → Bool
  | .char c => isDecimalDigit c || c = '.' || c = 'e' || c = 'E'
  | .lone _ => false

/-- No number goes on into the text. -/
def Stops (rest : List Point) : Prop := rest.head?.any goesOn = false

theorem Stops.append {ps rest : List Point} (first : Stops ps) (second : Stops rest) :
    Stops (ps ++ rest) := by
  cases ps with
  | nil => exact second
  | cons p ps => exact first

theorem Stops.digits {rest : List Point} (stops : Stops rest) : digits rest = [] := by
  unfold Json.digits
  split
  · simp only [Stops, goesOn, List.head?_cons, Option.any_some, Bool.or_eq_false_iff] at stops
    simp [stops.1.1.1]
  · rfl

theorem Stops.fractionDigits {rest : List Point} (stops : Stops rest) :
    fractionDigits rest = [] := by
  unfold Json.fractionDigits
  split
  · exact absurd stops (by simp [Stops, goesOn])
  · rfl

theorem Stops.exponentPart? {rest : List Point} (stops : Stops rest) :
    exponentPart? rest = none := by
  cases rest with
  | nil => rfl
  | cons p ps =>
      have marker : ¬(p = .char 'e' ∨ p = .char 'E') := by
        rintro (rfl | rfl) <;> simp [Stops, goesOn] at stops
      simp [Json.exponentPart?, marker]

theorem digits_append {cs : List Char} (all : ∀ c ∈ cs, isDecimalDigit c = true)
    (rest : List Point) : digits (cs.map .char ++ rest) = cs ++ digits rest := by
  induction cs with
  | nil => rfl
  | cons c cs ih =>
      obtain ⟨first, others⟩ := List.forall_mem_cons.mp all
      simp [digits, first, ih others]

theorem isDecimalDigit_of_mem_toDigits {n : Nat} {c : Char} (mem : c ∈ Nat.toDigits 10 n) :
    isDecimalDigit c = true := by
  have digit := Nat.isDigit_of_mem_toDigits (by decide) (by decide) mem
  simpa [isDecimalDigit, Char.isDigit, Char.le_def] using digit

theorem head?_toDigits_ne {n : Nat} (positive : 0 < n) :
    (Nat.toDigits 10 n).head? ≠ some '0' := by
  induction n using Nat.strongRecOn with
  | ind n ih =>
      by_cases small : n < 10
      · rw [Nat.toDigits_of_lt_base small]
        have all : ∀ n < 10, 0 < n → some (Nat.digitChar n) ≠ some '0' := by decide
        exact all n small positive
      · have digits := Nat.toDigits_of_base_le (by decide) (Nat.not_lt.mp small)
        have more : Nat.toDigits 10 (n / 10) ≠ [] := Nat.toDigits_ne_nil
        rw [digits, List.head?_append_of_ne_nil _ more]
        exact ih (n / 10) (by omega) (by omega)

theorem integerDigits_toDigits (n : Nat) {rest : List Point} (stops : Stops rest) :
    integerDigits ((Nat.toDigits 10 n).map .char ++ rest) = Nat.toDigits 10 n := by
  rcases Nat.eq_zero_or_pos n with rfl | positive
  · rw [Nat.toDigits_zero]
    rfl
  · have all : digits ((Nat.toDigits 10 n).map .char ++ rest) = Nat.toDigits 10 n := by
      rw [digits_append fun c mem => isDecimalDigit_of_mem_toDigits mem, stops.digits,
        List.append_nil]
    have head := head?_toDigits_ne positive
    cases chars : Nat.toDigits 10 n with
    | nil => exact absurd chars Nat.toDigits_ne_nil
    | cons c cs =>
        have leading : Point.char c ≠ .char '0' := by simpa [chars] using head
        rw [chars, List.map_cons, List.cons_append] at all
        rw [List.map_cons, List.cons_append, integerDigits, if_neg leading, all]

theorem points_toString (n : Int) :
    Text.points (toString n) =
      if n < 0 then .char '-' :: (Nat.toDigits 10 n.natAbs).map .char
      else (Nat.toDigits 10 n.natAbs).map .char := by
  rw [Text.points_plain, Int.toString_eq_repr, Int.repr_eq_if]
  by_cases negative : n < 0
  · have size : (-n).toNat = n.natAbs := by omega
    simp [negative, size, Nat.repr, Int.not_le.mpr negative]
  · have size : n.toNat = n.natAbs := by omega
    simp [negative, size, Nat.repr, Int.not_lt.mp negative]

theorem scanNumber?_toString {n : Int} (short : Decimal.digitCount n.natAbs ≤ maxIntegerDigits)
    {rest : List Point} (stops : Stops rest) :
    scanNumber? (Text.points (toString n) ++ rest) =
      some (.scalar (.int n), (Text.points (toString n)).length) := by
  have whole := integerDigits_toDigits n.natAbs stops
  have nonempty : (Nat.toDigits 10 n.natAbs).isEmpty = false := by
    simp [Nat.toDigits_ne_nil]
  have fits : ¬maxIntegerDigits < (Nat.toDigits 10 n.natAbs).length := Nat.not_lt.mpr short
  have after : ((Nat.toDigits 10 n.natAbs).map Point.char ++ rest).drop
      (Nat.toDigits 10 n.natAbs).length = rest := List.drop_left' (by simp)
  rw [points_toString]
  by_cases negative : n < 0
  · have value : -(n.natAbs : Int) = n := by omega
    simp only [if_pos negative, scanNumber?, List.cons_append, List.head?_cons, if_true,
      List.drop_one, List.tail_cons, whole, nonempty, Bool.false_eq_true, if_false, after,
      stops.fractionDigits, List.isEmpty_nil, List.drop_zero, stops.exponentPart?, fits,
      Nat.ofDigitChars_ten_toDigits, value]
    simp [Nat.add_comm]
  · have value : (n.natAbs : Int) = n := by omega
    have unsigned : ((Nat.toDigits 10 n.natAbs).map Point.char ++ rest).head? ≠
        some (.char '-') := by
      rw [List.head?_append_of_ne_nil _ (by simp [Nat.toDigits_ne_nil]), List.head?_map]
      intro sign
      obtain ⟨c, first, same⟩ := Option.map_eq_some_iff.mp sign
      obtain rfl := Point.char.inj same
      have digit := isDecimalDigit_of_mem_toDigits (List.mem_of_head? first)
      exact absurd digit (by decide)
    simp only [if_neg negative, scanNumber?, unsigned, if_false, whole, nonempty,
      Bool.false_eq_true, after, stops.fractionDigits, List.isEmpty_nil, if_true,
      List.drop_zero, stops.exponentPart?, fits, Nat.ofDigitChars_ten_toDigits, value, Nat.zero_add,
      List.length_map]

/-! ### Tokens -/

theorem tokensFrom_space {c : Point} (space : isSpace c = true) (start : Nat) (rest : List Point) :
    tokensFrom start (c :: rest) = tokensFrom (start + 1) rest := by
  rw [tokensFrom, if_pos space]

theorem tokensFrom_token {c : Point} {cs rest : List Point} {token : Token}
    (visible : isSpace c = false)
    (scanned : scanToken c (cs ++ rest) = (token, (c :: cs).length)) (goes : token.isLast = false)
    (start : Nat) :
    tokensFrom start (c :: cs ++ rest) =
      ⟨token, start⟩ :: tokensFrom (start + (c :: cs).length) rest := by
  rw [List.cons_append, tokensFrom, if_neg (by simp [visible])]
  simp [scanned, goes, Nat.add_assoc, Nat.add_comm 1]

theorem ne_of_isDecimalDigit {c d : Char} (digit : isDecimalDigit c = true)
    (other : isDecimalDigit d = false) : c ≠ d := by
  rintro rfl
  simp [digit] at other

theorem scanLiteral?_digit {c : Char} (digit : isDecimalDigit c = true) (rest : List Point) :
    scanLiteral? (.char c :: rest) = none ∧ scanLiteral? (.char '-' :: .char c :: rest) = none := by
  have ne {d : Char} (other : isDecimalDigit d = false) : ¬d = c :=
    (ne_of_isDecimalDigit digit other).symm
  constructor
  · simp [scanLiteral?, literals, @ne 'n' rfl, @ne 't' rfl, @ne 'f' rfl, @ne 'N' rfl,
      @ne 'I' rfl, @ne '-' rfl]
  · simp [scanLiteral?, literals, @ne 'I' rfl]

theorem scanToken_digit {c : Char} (digit : isDecimalDigit c = true) {rest : List Point}
    {found : Token × Nat} (number : scanNumber? (.char c :: rest) = some found) :
    isSpace (.char c) = false ∧ scanToken (.char c) rest = found := by
  have ne {d : Char} (other : isDecimalDigit d = false) : ¬c = d :=
    ne_of_isDecimalDigit digit other
  constructor
  · simp [isSpace, @ne ' ' rfl, @ne '\t' rfl, @ne '\n' rfl, @ne '\r' rfl]
  · simp [scanToken, @ne '\x7b' rfl, @ne '\x7d' rfl, @ne '[' rfl, @ne ']' rfl, @ne ':' rfl,
      @ne ',' rfl, @ne '"' rfl, (scanLiteral?_digit digit rest).1, number]

theorem scanToken_sign {c : Char} (digit : isDecimalDigit c = true) {rest : List Point}
    {found : Token × Nat} (number : scanNumber? (.char '-' :: .char c :: rest) = some found) :
    isSpace (.char '-') = false ∧ scanToken (.char '-') (.char c :: rest) = found :=
  ⟨rfl, by simp [scanToken, (scanLiteral?_digit digit rest).2, number]⟩

/-! ### Texts that end where they should -/

/-- Before any text into which no number goes on, a text yields the given tokens. -/
def Lexes (cs : List Point) (ts : List Token) : Prop :=
  ∀ start rest, Stops rest → ∃ located : List Located, located.map (·.token) = ts ∧
    tokensFrom start (cs ++ rest) = located ++ tokensFrom (start + cs.length) rest

theorem lexes_nil : Lexes [] [] := fun _ _ _ => ⟨[], rfl, rfl⟩

theorem Lexes.append {cs ds : List Point} {ts us : List Token} (first : Lexes cs ts)
    (second : Lexes ds us) (stops : Stops ds) : Lexes (cs ++ ds) (ts ++ us) := by
  intro start rest ends
  obtain ⟨l, tokens, lexed⟩ := first start (ds ++ rest) (stops.append ends)
  obtain ⟨m, moreTokens, moreLexed⟩ := second (start + cs.length) rest ends
  refine ⟨l ++ m, by rw [List.map_append, tokens, moreTokens], ?_⟩
  rw [List.append_assoc, lexed, moreLexed, List.length_append, List.append_assoc, Nat.add_assoc]

theorem Lexes.space {c : Point} (space : isSpace c = true) {cs : List Point} {ts : List Token}
    (lexes : Lexes cs ts) : Lexes (c :: cs) ts := by
  intro start rest stops
  obtain ⟨located, tokens, lexed⟩ := lexes (start + 1) rest stops
  refine ⟨located, tokens, ?_⟩
  rw [List.cons_append, tokensFrom_space space, lexed, List.length_cons, Nat.add_assoc,
    Nat.add_comm 1]

theorem lexes_token {c : Point} {cs : List Point} {token : Token} (visible : isSpace c = false)
    (goes : token.isLast = false)
    (scanned : ∀ rest, Stops rest → scanToken c (cs ++ rest) = (token, (c :: cs).length)) :
    Lexes (c :: cs) [token] := by
  intro start rest stops
  exact ⟨[⟨token, start⟩], rfl, tokensFrom_token visible (scanned rest stops) goes start⟩

theorem lexes_text (t : Text) : Lexes (writtenText t) [.text t] := by
  have written : writtenText t =
      .char '"' :: (t.points.flatMap writtenPoint ++ [.char '"']) := rfl
  rw [written]
  refine lexes_token rfl rfl fun rest _ => ?_
  have body : t.points.flatMap writtenPoint ++ [.char '"'] ++ rest =
      t.points.flatMap writtenPoint ++ .char '"' :: rest := by simp
  have size : (.char '"' :: (t.points.flatMap writtenPoint ++ [.char '"'])).length =
      1 + (t.points.flatMap writtenPoint).length + 1 := by
    simp only [List.length_cons, List.length_append, List.length_nil]
    omega
  rw [body, size]
  simp [scanToken, scanText_written]

theorem lexes_int {n : Int} (short : Decimal.digitCount n.natAbs ≤ maxIntegerDigits) :
    Lexes (Text.points (toString n)) [.scalar (.int n)] := by
  obtain ⟨d, ds, digits⟩ := List.exists_cons_of_ne_nil (@Nat.toDigits_ne_nil n.natAbs 10)
  have digit : isDecimalDigit d = true := by
    have mem : d ∈ Nat.toDigits 10 n.natAbs := by simp [digits]
    exact isDecimalDigit_of_mem_toDigits mem
  have number {rest : List Point} (stops : Stops rest) := scanNumber?_toString short stops
  rw [points_toString, digits, List.map_cons] at number ⊢
  -- the first digit stands at the start or after the sign
  by_cases negative : n < 0
  · rw [if_pos negative] at number ⊢
    refine lexes_token (scanToken_sign digit (@number [] rfl)).1 rfl fun rest stops => ?_
    exact (scanToken_sign digit (number stops)).2
  · rw [if_neg negative] at number ⊢
    refine lexes_token (scanToken_digit digit (@number [] rfl)).1 rfl fun rest stops => ?_
    exact (scanToken_digit digit (number stops)).2

/-- The tokens of a single character. -/
inductive Mark : Point → Token → Prop where
  | openBrace : Mark (.char '\x7b') .openBrace
  | closeBrace : Mark (.char '\x7d') .closeBrace
  | openBracket : Mark (.char '[') .openBracket
  | closeBracket : Mark (.char ']') .closeBracket
  | colon : Mark (.char ':') .colon
  | comma : Mark (.char ',') .comma

theorem Mark.scanToken {c : Point} {token : Token} (mark : Mark c token) (rest : List Point) :
    scanToken c rest = (token, 1) ∧ isSpace c = false ∧ token.isLast = false := by
  cases mark <;> exact ⟨rfl, rfl, rfl⟩

theorem Lexes.mark {c : Point} {token : Token} {cs : List Point} {ts : List Token}
    (lexes : Lexes cs ts) (mark : Mark c token) : Lexes (c :: cs) (token :: ts) := by
  intro start rest stops
  obtain ⟨located, tokens, lexed⟩ := lexes (start + 1) rest stops
  obtain ⟨scanned, visible, goes⟩ := mark.scanToken (cs ++ rest)
  refine ⟨⟨token, start⟩ :: located, by rw [List.map_cons, tokens], ?_⟩
  have first := @tokensFrom_token c [] (cs ++ rest) token visible scanned goes start
  rw [List.length_singleton, lexed, Nat.add_assoc, Nat.add_comm 1] at first
  exact first

theorem Lexes.newline {cs : List Point} {ts : List Token} (lexes : Lexes cs ts) (level : Nat) :
    Lexes (newline level ++ cs) ts := by
  have blanks (n : Nat) : Lexes (List.replicate n (.char ' ') ++ cs) ts := by
    induction n with
    | zero => exact lexes
    | succ n ih => exact ih.space rfl
  exact (blanks (2 * level)).space rfl

/-! ### Values -/

mutual

/-- The tokens of a written value. -/
def tokensOf : Json → List Token
  | .arr items => .openBracket :: tokensOfItems items ++ [.closeBracket]
  | .obj fields => .openBrace :: tokensOfFields fields ++ [.closeBrace]
  | .str value => [.text value]
  | value => [.scalar value]

def tokensOfItems : List Json → List Token
  | [] => []
  | [item] => tokensOf item
  | item :: rest => tokensOf item ++ .comma :: tokensOfItems rest

def tokensOfFields : List (Text × Json) → List Token
  | [] => []
  | [(key, value)] => .text key :: .colon :: tokensOf value
  | (key, value) :: rest =>
      .text key :: .colon :: tokensOf value ++ .comma :: tokensOfFields rest

end

/-- Integers are not too long and the keys of objects are distinct. Values that are read are
regular; without reals, they can be written and read back. -/
inductive Regular (reals : Prop) : Json → Prop where
  | null : Regular reals .null
  | bool (value : Bool) : Regular reals (.bool value)
  | int {value : Int} (short : Decimal.digitCount value.natAbs ≤ maxIntegerDigits) :
      Regular reals (.int value)
  | real (allowed : reals) (value : Decimal.Double) : Regular reals (.real value)
  | str (value : Text) : Regular reals (.str value)
  | arr {items : List Json} (all : ∀ item ∈ items, Regular reals item) : Regular reals (.arr items)
  | obj {fields : List (Text × Json)} (distinct : Ordered.Distinct fields)
      (all : ∀ field ∈ fields, Regular reals field.2) : Regular reals (.obj fields)

theorem lexes_indentedItems {items : List Json} {level : Nat}
    (all : ∀ item ∈ items, Lexes (indented level item) (tokensOf item)) :
    Lexes (indentedItems level items) (tokensOfItems items) := by
  induction items with
  | nil => exact lexes_nil
  | cons item rest ih =>
      have first := (all item List.mem_cons_self).newline level
      cases rest with
      | nil => exact first
      | cons next rest =>
          have others := ih fun item mem => all item (List.mem_cons_of_mem _ mem)
          exact first.append (others.mark .comma) rfl

theorem lexes_indentedFields {fields : List (Text × Json)} {level : Nat}
    (all : ∀ field ∈ fields, Lexes (indented level field.2) (tokensOf field.2)) :
    Lexes (indentedFields level fields) (tokensOfFields fields) := by
  induction fields with
  | nil => exact lexes_nil
  | cons field rest ih =>
      obtain ⟨key, value⟩ := field
      have written :
          Lexes (.char ':' :: .char ' ' :: indented level value) (.colon :: tokensOf value) :=
        ((all (key, value) List.mem_cons_self).space rfl).mark .colon
      have first := ((lexes_text key).newline level).append written rfl
      cases rest with
      | nil => exact first
      | cons next rest =>
          have others := ih fun item mem => all item (List.mem_cons_of_mem _ mem)
          exact first.append (others.mark .comma) rfl

theorem lexes_indented {value : Json} (regular : Regular False value) (level : Nat) :
    Lexes (indented level value) (tokensOf value) := by
  induction regular generalizing level with
  | null => exact lexes_token rfl rfl fun _ _ => rfl
  | bool value =>
      cases value with
      | false => exact lexes_token rfl rfl fun _ _ => rfl
      | true => exact lexes_token rfl rfl fun _ _ => rfl
  | int short => exact lexes_int short
  | real allowed => exact allowed.elim
  | str value => exact lexes_text value
  | @arr items _ ih =>
      cases items with
      | nil => exact (lexes_nil.mark .closeBracket).mark .openBracket
      | cons item rest =>
          have inner := lexes_indentedItems fun item mem => ih item mem (level + 1)
          have closing : Lexes (newline level ++ [.char ']']) [.closeBracket] :=
            (lexes_nil.mark .closeBracket).newline level
          have whole := (inner.append closing rfl).mark .openBracket
          rwa [← List.append_assoc] at whole
  | @obj fields _ _ ih =>
      cases fields with
      | nil => exact (lexes_nil.mark .closeBrace).mark .openBrace
      | cons field rest =>
          have inner := lexes_indentedFields fun field mem => ih field mem (level + 1)
          have closing : Lexes (newline level ++ [.char '\x7d']) [.closeBrace] :=
            (lexes_nil.mark .closeBrace).newline level
          have whole := (inner.append closing rfl).mark .openBrace
          rwa [← List.append_assoc] at whole

end Deduction.Json
