import Mathlib.Data.List.Chain
import Deduction.Proofs.RoundTrip

/-!
Texts taken apart into lexemes and white space.

Every text that has a layout has only one, and the tokenizer finds it: each token stands in the text
at its column, and all else is white space. Every other text has a layout up to a character at which
neither a lexeme nor white space starts, and that character is reported.
-/

namespace Deduction.Formula

/-! ### Lexemes -/

/-- The ways to write a connective or a parenthesis. -/
def TokenKind.spellings : TokenKind → List String
  | .and => ["∧", "&", "/\\"]
  | .or => ["∨", "|", "\\/"]
  | .impl => ["→", "->", "=>"]
  | .lparen => ["("]
  | .rparen => [")"]
  | .ident | .stop => []

inductive IsLexeme : TokenKind → String → Prop
  | name {text} : IsVariableName text → IsLexeme .ident text
  | mark {kind text} : text ∈ kind.spellings → IsLexeme kind text

theorem isLexeme_ident_iff {text : String} : IsLexeme .ident text ↔ IsVariableName text := by
  constructor
  · intro lexeme
    cases lexeme with
    | name named => exact named
    | mark mem => simp [TokenKind.spellings] at mem
  · exact .name

theorem IsLexeme.mem_spellings {kind : TokenKind} {text : String} (lexeme : IsLexeme kind text)
    (other : kind ≠ .ident) : text ∈ kind.spellings := by
  cases lexeme with
  | name => exact absurd rfl other
  | mark mem => exact mem

theorem marks_of_mem_spellings {kind : TokenKind} {text : String} (mem : text ∈ kind.spellings) :
    Marks kind text.toList := by
  cases kind <;>
    simp only [TokenKind.spellings, List.mem_cons, List.not_mem_nil, or_false] at mem
  case and | or | impl =>
    rcases mem with rfl | rfl | rfl <;> exact ⟨rfl, fun _ => rfl⟩
  case lparen | rparen =>
    obtain rfl := mem
    exact ⟨rfl, fun _ => rfl⟩

theorem isNamePart_eq_false_of_isBlank {c : Char} (blank : Text.isBlank c = true) :
    isNamePart c = false := by
  rw [Bool.eq_false_iff]
  intro part
  simp only [isNamePart, Bool.or_eq_true, Bool.and_eq_true, decide_eq_true_eq] at part
  rcases part with (start | ⟨low, high⟩) | rfl
  · simp [isBlank_eq_false_of_isNameStart start] at blank
  · have digit : 48 ≤ c.toNat ∧ c.toNat ≤ 57 := ⟨low, high⟩
    simp only [Text.isBlank, Text.Ranges.covers, Text.blankRanges, List.any_cons, List.any_nil,
      Bool.or_false, Bool.or_eq_true, Bool.and_eq_true, decide_eq_true_eq] at blank
    omega
  · exact absurd blank (by decide)

/-- No name goes on into a connective or a parenthesis. -/
theorem separate_of_mem_spellings {kind : TokenKind} {text : String} (mem : text ∈ kind.spellings)
    (rest : List Char) : Separate (text.toList ++ rest) := by
  have starts : ∀ text ∈ kind.spellings, text.toList.head?.map isNamePart = some false := by
    cases kind <;> decide
  obtain ⟨c, first, part⟩ := Option.map_eq_some_iff.mp (starts text mem)
  obtain ⟨more, chars⟩ := List.head?_eq_some_iff.mp first
  rw [chars]
  exact separate_cons part _

theorem separate_of_isBlank {c : Char} (blank : Text.isBlank c = true) (rest : List Char) :
    Separate (c :: rest) :=
  separate_cons (isNamePart_eq_false_of_isBlank blank) rest

theorem isVariableName_push_iff {name : String} {c : Char} (named : IsVariableName name) :
    IsVariableName (name.push c) ↔ isNamePart c = true := by
  obtain ⟨d, rest, chars, start, parts⟩ := named
  rw [isNamePart_iff]
  constructor
  · rintro ⟨e, others, chars', -, parts'⟩
    obtain ⟨rfl, rfl⟩ : d = e ∧ rest ++ [c] = others := by simpa [chars] using chars'
    exact parts' c (by simp)
  · intro part
    refine ⟨d, rest ++ [c], by simp [chars], start, ?_⟩
    rw [List.forall_mem_append]
    exact ⟨parts, by simpa using part⟩

theorem push_notMem_spellings {kind : TokenKind} {text : String} (mem : text ∈ kind.spellings)
    (c : Char) : text.push c ∉ kind.spellings := by
  intro longer
  have short := (marks_of_mem_spellings mem).lexeme [c]
  have long := (marks_of_mem_spellings longer).lexeme []
  simp [short] at long

/-- A lexeme goes on with a character only if it is a name and the character can be part of it. -/
theorem IsLexeme.not_push {kind : TokenKind} {text : String} (lexeme : IsLexeme kind text)
    {rest : List Char} (separate : kind = .ident → Separate rest) {c : Char}
    (next : c ∈ rest.head?) : ¬ IsLexeme kind (text.push c) := by
  intro longer
  cases lexeme with
  | name named =>
      have part := (isVariableName_push_iff named).mp (isLexeme_ident_iff.mp longer)
      simp [separate rfl c next] at part
  | mark mem =>
      cases longer with
      | name => simp [TokenKind.spellings] at mem
      | mark longer => exact push_notMem_spellings mem c longer

/-- A lexeme is one token, if no name goes on into what follows. -/
theorem IsLexeme.tokensFrom {kind : TokenKind} {text : String} (lexeme : IsLexeme kind text)
    {rest : List Char} (separate : kind = .ident → Separate rest) (column : Nat) :
    tokensFrom column (text.toList ++ rest) =
      (tokensFrom (column + text.toList.length) rest).map (⟨kind, text, column⟩ :: ·) := by
  cases lexeme with
  | name named => exact tokensFrom_name (isIdentifier_iff.mpr named) (separate rfl) column
  | mark mem => simpa using (marks_of_mem_spellings mem).tokensFrom column rest

theorem mem_spellings_of_symbol? {cs : List Char} {kind : TokenKind} {size : Nat}
    (symbol : symbol? cs = some (kind, size)) :
    ∃ text rest, cs = text.toList ++ rest ∧ text.toList.length = size ∧ text ∈ kind.spellings := by
  unfold symbol? at symbol
  split at symbol <;> simp only [Option.some.injEq, Prod.mk.injEq, reduceCtorEq] at symbol
  all_goals
    obtain ⟨rfl, rfl⟩ := symbol
    rename_i rest
  · exact ⟨"∧", rest, rfl, rfl, by decide⟩
  · exact ⟨"&", rest, rfl, rfl, by decide⟩
  · exact ⟨"/\\", rest, rfl, rfl, by decide⟩
  · exact ⟨"∨", rest, rfl, rfl, by decide⟩
  · exact ⟨"|", rest, rfl, rfl, by decide⟩
  · exact ⟨"\\/", rest, rfl, rfl, by decide⟩
  · exact ⟨"→", rest, rfl, rfl, by decide⟩
  · exact ⟨"->", rest, rfl, rfl, by decide⟩
  · exact ⟨"=>", rest, rfl, rfl, by decide⟩
  · exact ⟨"(", rest, rfl, rfl, by decide⟩
  · exact ⟨")", rest, rfl, rfl, by decide⟩

/-- What is found at the start of a text is a lexeme, and a name only up to its last character. -/
theorem exists_isLexeme_of_lexeme? {cs : List Char} {kind : TokenKind} {size : Nat}
    (found : lexeme? cs = some (kind, size)) :
    ∃ text rest, cs = text.toList ++ rest ∧ text.toList.length = size ∧ IsLexeme kind text ∧
      (kind = .ident → Separate rest) := by
  cases cs with
  | nil => simp [lexeme?] at found
  | cons c rest =>
      by_cases start : isNameStart c = true
      · obtain ⟨rfl, rfl⟩ : .ident = kind ∧ 1 + (rest.takeWhile isNamePart).length = size := by
          simpa [lexeme?, start] using found
        refine ⟨String.ofList (c :: rest.takeWhile isNamePart), rest.dropWhile isNamePart,
          ?_, ?_, ?_, fun _ d mem => ?_⟩
        · simp [List.takeWhile_append_dropWhile]
        · simp [Nat.add_comm]
        · exact .name (isIdentifier_iff.mp (by simp [isIdentifier, isName, start]))
        · have stops := List.head?_dropWhile_not isNamePart rest
          simpa [Option.mem_def.mp mem] using stops
      · obtain ⟨text, rest, chars, length, mem⟩ :=
          mem_spellings_of_symbol? (by simpa [lexeme?, start] using found)
        refine ⟨text, rest, chars, length, .mark mem, ?_⟩
        rintro rfl
        simp [TokenKind.spellings] at mem

theorem lexeme?_ne_none {kind : TokenKind} {text : String} (lexeme : IsLexeme kind text)
    (rest : List Char) : lexeme? (text.toList ++ rest) ≠ none := by
  cases lexeme with
  | name named =>
      obtain ⟨c, parts, chars, start, -⟩ := named
      simp [chars, lexeme?, isNameStart_iff.mpr start]
  | mark mem => simp [(marks_of_mem_spellings mem).lexeme rest]

theorem IsLexeme.toList_ne_nil {kind : TokenKind} {text : String} (lexeme : IsLexeme kind text) :
    text.toList ≠ [] := by
  intro empty
  exact lexeme?_ne_none lexeme [] (by simp [empty, lexeme?])

/-! ### Layouts -/

/-- A lexeme and the white space before it. -/
structure Piece where
  gap : List Char
  kind : TokenKind
  text : String
  deriving DecidableEq, Repr

def Piece.chars (p : Piece) : List Char := p.gap ++ p.text.toList

structure Piece.Proper (p : Piece) : Prop where
  blank : ∀ c ∈ p.gap, Text.isBlank c = true
  lexeme : IsLexeme p.kind p.text

/-- A text taken apart, with the white space at its end. -/
structure Layout where
  pieces : List Piece
  ending : List Char
  deriving DecidableEq, Repr

namespace Layout

def chars (l : Layout) : List Char := l.pieces.flatMap Piece.chars ++ l.ending

/-- The tokens of pieces, of which the first starts at the given column. -/
def tokensOf (column : Nat) : List Piece → List Token
  | [] => []
  | p :: more =>
      ⟨p.kind, p.text, column + p.gap.length⟩ :: tokensOf (column + p.chars.length) more

def tokens (l : Layout) : List Token := tokensOf 1 l.pieces

/-- White space may stand everywhere between lexemes, and has to stand between two names. -/
structure Proper (l : Layout) : Prop where
  pieces : ∀ p ∈ l.pieces, p.Proper
  apart : l.pieces.IsChain fun p q => p.kind = .ident → q.kind = .ident → q.gap ≠ []
  ending : ∀ c ∈ l.ending, Text.isBlank c = true

/-- The last lexeme does not go on into the text after a layout. -/
def Reaches (l : Layout) (rest : List Char) : Prop :=
  l.ending = [] → ∀ p ∈ l.pieces.getLast?, ∀ c ∈ rest.head?, ¬ IsLexeme p.kind (p.text.push c)

theorem proper_nil : Proper ⟨[], []⟩ := ⟨by simp, .nil, by simp⟩

theorem reaches_nil (rest : List Char) : Reaches ⟨[], []⟩ rest := by simp [Reaches]

theorem proper_cons_iff {p : Piece} {more : List Piece} {ending : List Char} :
    Proper ⟨p :: more, ending⟩ ↔
      p.Proper ∧ (∀ q ∈ more.head?, p.kind = .ident → q.kind = .ident → q.gap ≠ []) ∧
        Proper ⟨more, ending⟩ := by
  constructor
  · intro proper
    obtain ⟨first, others⟩ := List.forall_mem_cons.mp proper.pieces
    obtain ⟨next, apart⟩ := List.isChain_cons.mp proper.apart
    exact ⟨first, next, others, apart, proper.ending⟩
  · rintro ⟨first, next, others, apart, ending⟩
    exact ⟨List.forall_mem_cons.mpr ⟨first, others⟩, List.isChain_cons.mpr ⟨next, apart⟩, ending⟩

theorem chars_cons (p : Piece) (more : List Piece) (ending : List Char) :
    chars ⟨p :: more, ending⟩ = p.chars ++ chars ⟨more, ending⟩ := by
  simp [chars]

theorem Reaches.tail {p : Piece} {more : List Piece} {ending rest : List Char}
    (reaches : Reaches ⟨p :: more, ending⟩ rest) : Reaches ⟨more, ending⟩ rest := by
  intro empty last mem
  cases more with
  | nil => simp at mem
  | cons q more => exact reaches empty last (by simpa using mem)

/-- No name goes on into what follows it in a layout, or after it. -/
theorem Proper.separate {p : Piece} {more : List Piece} {ending rest : List Char}
    (proper : Proper ⟨p :: more, ending⟩) (reaches : Reaches ⟨p :: more, ending⟩ rest)
    (ident : p.kind = .ident) : Separate (chars ⟨more, ending⟩ ++ rest) := by
  obtain ⟨first, next, proper⟩ := proper_cons_iff.mp proper
  cases more with
  | nil =>
      cases ending with
      | nil =>
          have named : IsVariableName p.text := isLexeme_ident_iff.mp (ident ▸ first.lexeme)
          intro c mem
          rw [Bool.eq_false_iff]
          intro part
          apply reaches rfl p rfl c mem
          rw [ident]
          exact .name ((isVariableName_push_iff named).mpr part)
      | cons c ending => exact separate_of_isBlank (proper.ending c List.mem_cons_self) _
  | cons q more =>
      obtain ⟨second, -, -⟩ := proper_cons_iff.mp proper
      rw [chars_cons, Piece.chars, List.append_assoc, List.append_assoc]
      cases gap : q.gap with
      | nil =>
          have other : q.kind ≠ .ident := fun name => next q rfl ident name gap
          exact separate_of_mem_spellings (second.lexeme.mem_spellings other) _
      | cons c gap' => exact separate_of_isBlank (second.blank c (by simp [gap])) _

theorem tokensFrom_blanks {gap : List Char} (blank : ∀ c ∈ gap, Text.isBlank c = true)
    (column : Nat) (rest : List Char) :
    tokensFrom column (gap ++ rest) = tokensFrom (column + gap.length) rest := by
  induction gap generalizing column with
  | nil => rfl
  | cons c gap ih =>
      obtain ⟨first, others⟩ := List.forall_mem_cons.mp blank
      rw [List.cons_append, tokensFrom_blank first, ih others, List.length_cons]
      congr 1
      omega

/-- The tokenizer goes through a layout and on to the text after it. -/
theorem Proper.tokensFrom {l : Layout} (proper : l.Proper) {rest : List Char}
    (reaches : l.Reaches rest) (column : Nat) :
    Formula.tokensFrom column (l.chars ++ rest) =
      (Formula.tokensFrom (column + l.chars.length) rest).map (tokensOf column l.pieces ++ ·) := by
  obtain ⟨pieces, ending⟩ := l
  induction pieces generalizing column with
  | nil =>
      have blanks := tokensFrom_blanks proper.ending column rest
      cases read : Formula.tokensFrom (column + ending.length) rest <;>
        simp [chars, tokensOf, blanks, read, Except.map]
  | cons p more ih =>
      have separate := proper.separate reaches
      obtain ⟨first, -, others⟩ := proper_cons_iff.mp proper
      have text : chars ⟨p :: more, ending⟩ ++ rest =
          p.gap ++ (p.text.toList ++ (chars ⟨more, ending⟩ ++ rest)) := by
        rw [chars_cons, Piece.chars, List.append_assoc, List.append_assoc]
      rw [text, tokensFrom_blanks first.blank, first.lexeme.tokensFrom separate, chars_cons,
        List.length_append, ← Nat.add_assoc]
      have later := ih (column + p.chars.length) others reaches.tail
      have start : column + p.gap.length + p.text.toList.length = column + p.chars.length := by
        simp [Piece.chars, Nat.add_assoc]
      rw [start, later]
      cases Formula.tokensFrom (column + p.chars.length + (chars ⟨more, ending⟩).length) rest <;>
        rfl

/-- Layouts of a text that give the same tokens are the same. -/
theorem eq_of_tokensOf_eq {l l' : Layout} (text : l.chars = l'.chars) {column : Nat}
    (tokens : tokensOf column l.pieces = tokensOf column l'.pieces) : l = l' := by
  obtain ⟨pieces, ending⟩ := l
  obtain ⟨pieces', ending'⟩ := l'
  induction pieces generalizing pieces' column with
  | nil =>
      cases pieces' with
      | nil => simpa [chars] using text
      | cons p' more' => simp [tokensOf] at tokens
  | cons p more ih =>
      cases pieces' with
      | nil => simp [tokensOf] at tokens
      | cons p' more' =>
          obtain ⟨gap, kind, lexeme⟩ := p
          obtain ⟨gap', kind', lexeme'⟩ := p'
          simp only [tokensOf, List.cons.injEq, Token.mk.injEq, Nat.add_left_cancel_iff] at tokens
          obtain ⟨⟨rfl, rfl, sameLength⟩, later⟩ := tokens
          simp only [chars_cons, Piece.chars, List.append_assoc] at text
          obtain ⟨rfl, tail⟩ := List.append_inj text sameLength
          have rest : chars ⟨more, ending⟩ = chars ⟨more', ending'⟩ := List.append_cancel_left tail
          obtain ⟨rfl, rfl⟩ : more = more' ∧ ending = ending' := by
            simpa using ih _ rest later
          rfl

/-! ### The layout of a text -/

/-- Put a character into the first gap. -/
def indent (c : Char) : Layout → Layout
  | ⟨[], ending⟩ => ⟨[], c :: ending⟩
  | ⟨p :: more, ending⟩ => ⟨{ p with gap := c :: p.gap } :: more, ending⟩

theorem chars_indent (c : Char) (l : Layout) : (l.indent c).chars = c :: l.chars := by
  obtain ⟨_ | ⟨p, more⟩, ending⟩ := l <;> simp [indent, chars, Piece.chars]

theorem Proper.indent {l : Layout} (proper : l.Proper) {c : Char} (blank : Text.isBlank c = true) :
    (l.indent c).Proper := by
  obtain ⟨_ | ⟨p, more⟩, ending⟩ := l
  · exact ⟨proper.pieces, proper.apart, List.forall_mem_cons.mpr ⟨blank, proper.ending⟩⟩
  · obtain ⟨⟨gap, lexeme⟩, next, others⟩ := proper_cons_iff.mp proper
    exact proper_cons_iff.mpr ⟨⟨List.forall_mem_cons.mpr ⟨blank, gap⟩, lexeme⟩, next, others⟩

theorem Reaches.indent {l : Layout} {rest : List Char} (reaches : l.Reaches rest) (c : Char) :
    (l.indent c).Reaches rest := by
  obtain ⟨_ | ⟨p, more⟩, ending⟩ := l
  · intro empty
    cases empty
  · intro empty last mem
    cases more with
    | nil =>
        obtain rfl : { p with gap := c :: p.gap } = last := by simpa [Layout.indent] using mem
        exact reaches empty p rfl
    | cons q more => exact reaches empty last (by simpa [Layout.indent] using mem)

/-- A lexeme stands before a layout if it ends before the text does that follows. -/
theorem Proper.cons {l : Layout} (proper : l.Proper) {rest : List Char} {kind : TokenKind}
    {text : String} (lexeme : IsLexeme kind text)
    (separate : kind = .ident → Separate (l.chars ++ rest)) :
    Proper ⟨⟨[], kind, text⟩ :: l.pieces, l.ending⟩ := by
  refine proper_cons_iff.mpr ⟨⟨by simp, lexeme⟩, ?_, proper⟩
  obtain ⟨_ | ⟨q, more⟩, ending⟩ := l
  · simp
  · intro q' mem ident ident' empty
    obtain rfl : q = q' := by simpa using mem
    obtain ⟨second, -, -⟩ := proper_cons_iff.mp proper
    obtain ⟨c, parts, named, start, -⟩ := isLexeme_ident_iff.mp (ident' ▸ second.lexeme)
    have part : isNamePart c = false :=
      separate ident c (by simp [chars, Piece.chars, empty, named])
    simp [isNamePart, isNameStart_iff.mpr start] at part

theorem Reaches.cons {l : Layout} {rest : List Char} (reaches : l.Reaches rest) {kind : TokenKind}
    {text : String} (lexeme : IsLexeme kind text)
    (separate : kind = .ident → Separate (l.chars ++ rest)) :
    Reaches ⟨⟨[], kind, text⟩ :: l.pieces, l.ending⟩ rest := by
  intro empty last mem c next
  obtain ⟨_ | ⟨q, more⟩, ending⟩ := l
  · obtain rfl : ⟨[], kind, text⟩ = last := by simpa using mem
    obtain rfl : ending = [] := empty
    exact lexeme.not_push separate next
  · exact reaches empty last (by simpa using mem) c next

/-- Neither a lexeme nor white space starts at a character. -/
def Stuck (c : Char) (rest : List Char) : Prop :=
  Text.isBlank c = false ∧ ∀ kind text, IsLexeme kind text → ¬ text.toList <+: c :: rest

theorem stuck_iff {c : Char} {rest : List Char} :
    Stuck c rest ↔ Text.isBlank c = false ∧ lexeme? (c :: rest) = none := by
  refine and_congr_right fun _ => ⟨fun stuck => ?_, ?_⟩
  · cases found : lexeme? (c :: rest) with
    | none => rfl
    | some lexeme =>
        obtain ⟨text, others, chars, -, isLexeme, -⟩ := exists_isLexeme_of_lexeme? found
        exact absurd ⟨others, chars.symm⟩ (stuck _ text isLexeme)
  · rintro none kind text isLexeme ⟨others, chars⟩
    exact lexeme?_ne_none isLexeme others (by rw [chars, none])

/-- Every text has a layout up to where it ends, or up to where neither a lexeme nor white space
starts. -/
theorem exists_proper (cs : List Char) :
    ∃ (l : Layout) (rest : List Char), l.Proper ∧ l.Reaches rest ∧ cs = l.chars ++ rest ∧
      (rest = [] ∨ ∃ c more, rest = c :: more ∧ Stuck c more) := by
  -- the column does not matter here, only the recursion of the tokenizer does
  fun_induction Formula.tokensFrom 1 cs with
  | case1 => exact ⟨⟨[], []⟩, [], proper_nil, reaches_nil [], rfl, .inl rfl⟩
  | case2 column c rest blank ih =>
      obtain ⟨l, more, proper, reaches, rfl, last⟩ := ih
      exact ⟨l.indent c, more, proper.indent blank, reaches.indent c, by simp [chars_indent], last⟩
  | case3 column c rest visible none =>
      have stuck : Stuck c rest := stuck_iff.mpr ⟨by simpa using visible, none⟩
      exact ⟨⟨[], []⟩, c :: rest, proper_nil, reaches_nil _, rfl, .inr ⟨c, rest, rfl, stuck⟩⟩
  | case4 column c rest visible kind size lexeme _ _ ih
  | case5 column c rest visible kind size lexeme _ _ ih =>
      obtain ⟨l, more, proper, reaches, tail, last⟩ := ih
      obtain ⟨text, others, whole, length, isLexeme, separate⟩ := exists_isLexeme_of_lexeme? lexeme
      have remaining : others = l.chars ++ more := by
        obtain ⟨d, ds, text'⟩ := List.exists_cons_of_ne_nil isLexeme.toList_ne_nil
        obtain ⟨-, rfl⟩ : c = d ∧ rest = ds ++ others := by simpa [text'] using whole
        obtain rfl : ds.length + 1 = size := by simpa [text'] using length
        simpa using tail
      rw [remaining] at separate whole
      exact ⟨⟨⟨[], kind, text⟩ :: l.pieces, l.ending⟩, more, proper.cons isLexeme separate,
        reaches.cons isLexeme separate, by simpa [chars_cons, Piece.chars] using whole, last⟩

theorem Proper.tokensFrom_chars {l : Layout} (proper : l.Proper) (column : Nat) :
    Formula.tokensFrom column l.chars = .ok (tokensOf column l.pieces) := by
  have reaches : l.Reaches [] := by simp [Reaches]
  have lexed := proper.tokensFrom reaches column
  rw [List.append_nil] at lexed
  rw [lexed]
  simp [Formula.tokensFrom, Except.map]

/-- A text that has a layout is tokenized as the layout says. -/
theorem Proper.tokenize {l : Layout} (proper : l.Proper) {text : String}
    (whole : l.chars = text.toList) : tokenize text = .ok l.tokens := by
  rw [Formula.tokenize, ← whole, proper.tokensFrom_chars, tokens]

/-- A text that has a layout only up to some character is refused at that character. -/
theorem Proper.tokenize_stuck {l : Layout} (proper : l.Proper) {c : Char} {rest : List Char}
    (reaches : l.Reaches (c :: rest)) (stuck : Stuck c rest) {text : String}
    (whole : text.toList = l.chars ++ c :: rest) :
    Formula.tokenize text = .error ⟨c, l.chars.length + 1⟩ := by
  obtain ⟨visible, none⟩ := stuck_iff.mp stuck
  have lexed := proper.tokensFrom reaches 1
  rw [Formula.tokenize, whole, lexed, Formula.tokensFrom]
  simp [visible, none, Except.map, Nat.add_comm]

end Layout

/-! ### Where tokens stand -/

/-- The characters of a text from one column up to another. -/
def span (text : String) (start stop : Nat) : List Char :=
  (text.toList.take (stop - 1)).drop (start - 1)

/-- From a column on, tokens stand in a text one after another, and all else is white space. -/
def Stand (text : String) : Nat → List Token → Prop
  | column, [] => ∀ c ∈ span text column (text.length + 1), Text.isBlank c = true
  | column, t :: more =>
      column ≤ t.column ∧ (∀ c ∈ span text column t.column, Text.isBlank c = true) ∧
        span text t.column (t.column + t.text.length) = t.text.toList ∧
        Stand text (t.column + t.text.length) more

theorem span_eq {text : String} {left middle right : List Char}
    (whole : text.toList = left ++ middle ++ right) :
    span text (left.length + 1) (left.length + 1 + middle.length) = middle := by
  have stop : left.length + 1 + middle.length - 1 = (left ++ middle).length := by
    rw [List.length_append]
    omega
  rw [span, whole, stop, List.take_left, Nat.add_sub_cancel, List.drop_left]

theorem span_self (text : String) (column : Nat) : span text column column = [] := by
  simp [span]

theorem Layout.Proper.stand {pieces : List Piece} {ending : List Char}
    (proper : Proper ⟨pieces, ending⟩) {text : String} {left : List Char}
    (whole : text.toList = left ++ chars ⟨pieces, ending⟩) :
    Stand text (left.length + 1) (tokensOf (left.length + 1) pieces ++ [endOf text]) := by
  induction pieces generalizing left with
  | nil =>
      have stop : text.length + 1 = left.length + 1 + ending.length := by
        rw [← String.length_toList, whole]
        simp [chars, Nat.add_right_comm]
      have rest : span text (left.length + 1) (text.length + 1) = ending := by
        have parts : text.toList = left ++ ending ++ [] := by simpa [chars] using whole
        rw [stop, span_eq parts]
      refine ⟨by simp [endOf, stop], ?_, span_self text _, ?_⟩
      · rw [endOf, rest]
        exact proper.ending
      · simp [Stand, endOf, span_self]
  | cons p more ih =>
      obtain ⟨first, -, others⟩ := proper_cons_iff.mp proper
      have parts : text.toList = left ++ p.gap ++ p.text.toList ++ chars ⟨more, ending⟩ := by
        simpa [chars_cons, Piece.chars] using whole
      have gap : span text (left.length + 1) (left.length + 1 + p.gap.length) = p.gap := by
        apply span_eq
        rw [parts, List.append_assoc _ p.text.toList]
      have lexeme := span_eq parts
      have column : (left ++ p.gap).length + 1 = left.length + 1 + p.gap.length := by
        rw [List.length_append, Nat.add_right_comm]
      have next :
          left.length + 1 + p.gap.length + p.text.length = (left ++ p.chars).length + 1 := by
        simp only [Piece.chars, List.length_append, String.length_toList]
        omega
      have later := @ih others (left ++ p.chars) (by simpa [Piece.chars] using parts)
      refine ⟨Nat.le_add_right _ _, ?_, ?_, ?_⟩
      · rw [gap]
        exact first.blank
      · rwa [column, String.length_toList] at lexeme
      · rw [next]
        have start : (left ++ p.chars).length + 1 = left.length + 1 + p.chars.length := by
          rw [List.length_append, Nat.add_right_comm]
        rwa [← start]

/-! ### Texts -/

theorem tokenize_cases (text : String) :
    (∃ l : Layout, l.Proper ∧ l.chars = text.toList ∧ tokenize text = .ok l.tokens) ∨
      ∃ (l : Layout) (c : Char) (rest : List Char), l.Proper ∧ l.Reaches (c :: rest) ∧
        text.toList = l.chars ++ c :: rest ∧ Layout.Stuck c rest ∧
        tokenize text = .error ⟨c, l.chars.length + 1⟩ := by
  obtain ⟨l, rest, proper, reaches, whole, rfl | ⟨c, more, rfl, stuck⟩⟩ :=
    Layout.exists_proper text.toList
  · rw [List.append_nil] at whole
    exact .inl ⟨l, proper, whole.symm, proper.tokenize whole.symm⟩
  · exact .inr ⟨l, c, more, proper, reaches, whole, stuck,
      proper.tokenize_stuck reaches stuck whole⟩

theorem exists_layout_of_tokenize {text : String} {ts : List Token}
    (lexed : tokenize text = .ok ts) :
    ∃ l : Layout, l.Proper ∧ l.chars = text.toList ∧ l.tokens = ts := by
  rcases tokenize_cases text with ⟨l, proper, whole, read⟩ | ⟨_, _, _, -, -, -, -, failed⟩
  · exact ⟨l, proper, whole, Except.ok.inj (read.symm.trans lexed)⟩
  · simp [lexed] at failed

/-- The tokenizer finds the layout of a text, which is the only one; the tokens stand in the text,
and all else is white space. A text without a layout is refused at a character at which neither a
lexeme nor white space starts, after a layout of all that is before it. -/
theorem tokenize_eq_ok_iff_layout (text : String) :
    (∀ ts, tokenize text = .ok ts ↔
      ∃ l : Layout, l.Proper ∧ l.chars = text.toList ∧ l.tokens = ts) ∧
    (∀ l l' : Layout, l.Proper → l'.Proper → l.chars = text.toList → l'.chars = text.toList →
      l = l') ∧
    (∀ ts, tokenize text = .ok ts →
      Stand text 1 (ts ++ [endOf text]) ∧ (endOf text).column = text.length + 1) ∧
    ((¬ ∃ l : Layout, l.Proper ∧ l.chars = text.toList) → ∃ c column,
      tokenize text = .error ⟨c, column⟩ ∧
      ∀ limit, parseWithin limit text = .error (.strayChar c column)) ∧
    ∀ c column, tokenize text = .error ⟨c, column⟩ ↔
      ∃ (l : Layout) (rest : List Char), l.Proper ∧ l.Reaches (c :: rest) ∧
        text.toList = l.chars ++ c :: rest ∧ column = l.chars.length + 1 ∧
        Layout.Stuck c rest := by
  refine ⟨fun ts => ⟨exists_layout_of_tokenize, ?_⟩, ?_, ?_, ?_, fun c column => ⟨?_, ?_⟩⟩
  · rintro ⟨l, proper, whole, rfl⟩
    exact proper.tokenize whole
  · intro l l' proper proper' whole whole'
    have same : l.tokens = l'.tokens :=
      Except.ok.inj ((proper.tokenize whole).symm.trans (proper'.tokenize whole'))
    exact Layout.eq_of_tokensOf_eq (whole.trans whole'.symm) same
  · intro ts lexed
    obtain ⟨l, proper, whole, rfl⟩ := exists_layout_of_tokenize lexed
    have stand := @Layout.Proper.stand l.pieces l.ending proper text [] whole.symm
    exact ⟨stand, rfl⟩
  · intro none
    rcases tokenize_cases text with ⟨l, proper, whole, -⟩ | ⟨l, c, rest, -, -, -, -, failed⟩
    · exact absurd ⟨l, proper, whole⟩ none
    · exact ⟨c, _, failed, fun limit => by simp [parseWithin, failed]⟩
  · intro failed
    rcases tokenize_cases text with
      ⟨_, -, -, read⟩ | ⟨l, d, rest, proper, reaches, whole, stuck, failed'⟩
    · simp [failed] at read
    · obtain ⟨rfl, rfl⟩ : c = d ∧ column = l.chars.length + 1 := by
        simpa [failed] using failed'
      exact ⟨l, rest, proper, reaches, whole, rfl, stuck⟩
  · rintro ⟨l, rest, proper, reaches, whole, rfl, stuck⟩
    exact proper.tokenize_stuck reaches stuck whole

/-- Connectives that touch each other, and a character after a name at which nothing starts. -/
theorem touching_taken_apart :
    (∃ l : Layout, l.Proper ∧ l.chars = "p' /\\\\/q".toList ∧
      l.tokens = [⟨.ident, "p'", 1⟩, ⟨.and, "/\\", 4⟩, ⟨.or, "\\/", 6⟩, ⟨.ident, "q", 8⟩]) ∧
      tokenize "p1-q" = .error ⟨'-', 3⟩ := by
  have lexed : tokenize "p' /\\\\/q" =
      .ok [⟨.ident, "p'", 1⟩, ⟨.and, "/\\", 4⟩, ⟨.or, "\\/", 6⟩, ⟨.ident, "q", 8⟩] := by
    decide +kernel
  have lexeme : IsLexeme .ident "p1" := .name (isIdentifier_iff.mp (by decide))
  have stuck : Layout.Stuck '-' ['q'] := Layout.stuck_iff.mpr (by decide)
  have separate : Separate ['-', 'q'] := separate_cons (by decide) _
  refine ⟨((tokenize_eq_ok_iff_layout _).1 _).mp lexed, ?_⟩
  exact ((tokenize_eq_ok_iff_layout _).2.2.2.2 _ _).mpr ⟨⟨[⟨[], .ident, "p1"⟩], []⟩, ['q'],
    Layout.proper_nil.cons lexeme fun _ => separate,
    (Layout.reaches_nil _).cons lexeme fun _ => separate, by decide, by decide, stuck⟩

end Deduction.Formula
