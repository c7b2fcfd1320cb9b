import Mathlib.Data.List.Basic
import Deduction.Formula.Token

/-!
The tokens of texts that are put together from names, marks and single spaces.

A name ends where no further character can belong to it. Marks are the connectives and parentheses,
and end by themselves.
-/

namespace Deduction.Formula

theorem isBlank_eq_false_of_isNameStart {c : Char} (h : isNameStart c = true) :
    Text.isBlank c = false := by
  have letters : (65 ≤ c.toNat ∧ c.toNat ≤ 90) ∨ (97 ≤ c.toNat ∧ c.toNat ≤ 122) ∨ c.toNat = 95 := by
    simp only [isNameStart, Bool.or_eq_true, Bool.and_eq_true, decide_eq_true_eq, Char.le_def,
      UInt32.le_iff_toNat_le] at h
    rcases h with (h | h) | rfl
    · exact .inl h
    · exact .inr (.inl h)
    · exact .inr (.inr rfl)
  simp only [Text.isBlank, Text.Ranges.covers, Text.blankRanges, List.any_cons, List.any_nil,
    Bool.or_false, Bool.or_eq_false_iff, Bool.and_eq_false_iff, decide_eq_false_iff_not]
  omega

theorem tokensFrom_blank {c : Char} (blank : Text.isBlank c = true) (column : Nat)
    (rest : List Char) : tokensFrom column (c :: rest) = tokensFrom (column + 1) rest := by
  rw [tokensFrom, if_pos blank]

/-- A lexeme is one token, after which the text goes on. -/
theorem tokensFrom_lexeme {c : Char} {cs rest : List Char} {kind : TokenKind}
    (visible : Text.isBlank c = false)
    (lexeme : lexeme? (c :: cs ++ rest) = some (kind, (c :: cs).length)) (column : Nat) :
    tokensFrom column (c :: cs ++ rest) =
      (tokensFrom (column + (c :: cs).length) rest).map
        (⟨kind, String.ofList (c :: cs), column⟩ :: ·) := by
  have token : (c :: (cs ++ rest)).take (c :: cs).length = c :: cs := by
    simp
  rw [List.cons_append, tokensFrom, if_neg (by simp [visible])]
  rw [List.cons_append] at lexeme
  simp only [lexeme, token]
  simp only [List.length_cons, Nat.add_sub_cancel, List.drop_left]
  cases tokensFrom (column + (cs.length + 1)) rest <;> rfl

/-! ### What tokens are made of -/

theorem length_le_of_tokensFrom {column : Nat} {cs : List Char} {ts : List Token}
    (h : tokensFrom column cs = .ok ts) : ts.length ≤ cs.length := by
  fun_induction tokensFrom column cs generalizing ts with
  | case1 => simp_all
  | case2 column c rest blank ih => exact Nat.le_succ_of_le (ih h)
  | case3 => simp at h
  | case4 => simp at h
  | case5 column c rest _ kind size _ more lexed ih =>
      obtain rfl : _ = ts := by simpa using h
      have shorter := ih lexed
      simp only [List.length_drop] at shorter
      simp only [List.length_cons]
      omega

theorem length_le_of_tokenize {text : String} {ts : List Token} (h : tokenize text = .ok ts) :
    ts.length ≤ text.length := by
  rw [← String.length_toList]
  exact length_le_of_tokensFrom h

theorem symbol?_ne_ident {cs : List Char} {size : Nat} : symbol? cs ≠ some (.ident, size) := by
  unfold symbol?
  split <;> simp

theorem isName_of_lexeme? {c : Char} {rest : List Char} {size : Nat}
    (lexeme : lexeme? (c :: rest) = some (.ident, size)) :
    isName ((c :: rest).take size) = true := by
  by_cases start : isNameStart c = true
  · obtain rfl : 1 + (rest.takeWhile isNamePart).length = size := by
      simpa [lexeme?, start] using lexeme
    have part : rest.takeWhile isNamePart = rest.take (rest.takeWhile isNamePart).length :=
      List.prefix_iff_eq_take.mp ( List.takeWhile_prefix isNamePart)
    rw [Nat.add_comm, List.take_succ_cons, ← part]
    simp [isName, start]
  · exact absurd (by simpa [lexeme?, start] using lexeme) symbol?_ne_ident

theorem isIdentifier_of_mem_tokensFrom {column : Nat} {cs : List Char} {ts : List Token}
    (h : tokensFrom column cs = .ok ts) {t : Token} (mem : t ∈ ts) (ident : t.kind = .ident) :
    isIdentifier t.text = true := by
  fun_induction tokensFrom column cs generalizing ts with
  | case1 => simp_all
  | case2 column c rest blank ih => exact ih h mem
  | case3 => simp at h
  | case4 => simp at h
  | case5 column c rest _ kind size lexeme more lexed ih =>
      obtain rfl : _ = ts := by simpa using h
      rcases List.mem_cons.mp mem with rfl | mem
      · obtain rfl : kind = .ident := ident
        simpa [isIdentifier] using isName_of_lexeme? lexeme
      · exact ih lexed mem

/-! ### Texts that end where they should -/

/-- No name goes on into the text. -/
def Separate (rest : List Char) : Prop := ∀ c ∈ rest.head?, isNamePart c = false

theorem separate_cons {c : Char} (ends : isNamePart c = false) (rest : List Char) :
    Separate (c :: rest) := by
  intro d mem
  obtain rfl : c = d := by simpa using mem
  exact ends

/-- Before any text into which no name goes on, a text yields tokens of some form. -/
def Lexes (cs : List Char) (form : List Token → Prop) : Prop :=
  ∀ column rest, Separate rest → ∃ ts, form ts ∧
    tokensFrom column (cs ++ rest) = (tokensFrom (column + cs.length) rest).map (ts ++ ·)

theorem Lexes.mono {cs : List Char} {form other : List Token → Prop} (lexes : Lexes cs form)
    (weaker : ∀ ts, form ts → other ts) : Lexes cs other := by
  intro column rest separate
  obtain ⟨ts, formed, lexed⟩ := lexes column rest separate
  exact ⟨ts, weaker ts formed, lexed⟩

theorem tokensFrom_name {name : String} (identifier : isIdentifier name = true) {rest : List Char}
    (separate : Separate rest) (column : Nat) :
    tokensFrom column (name.toList ++ rest) =
      (tokensFrom (column + name.toList.length) rest).map (⟨.ident, name, column⟩ :: ·) := by
  cases chars : name.toList with
  | nil => simp [isIdentifier, isName, chars] at identifier
  | cons c cs =>
      obtain ⟨start, parts⟩ : isNameStart c = true ∧ ∀ c ∈ cs, isNamePart c = true := by
        simpa [isIdentifier, isName, chars] using identifier
      have ends : rest.takeWhile isNamePart = [] := by
        cases rest with
        | nil => rfl
        | cons d more => simp [separate d (by simp)]
      have lexeme : lexeme? (c :: cs ++ rest) = some (.ident, (c :: cs).length) := by
        simp [lexeme?, start, List.takeWhile_append_of_pos parts, ends, Nat.add_comm]
      rw [tokensFrom_lexeme (isBlank_eq_false_of_isNameStart start) lexeme, ← chars,
        String.ofList_toList]

theorem lexes_name {name : String} (identifier : isIdentifier name = true) :
    Lexes name.toList fun ts => ∃ column, ts = [⟨.ident, name, column⟩] := by
  intro column rest separate
  exact ⟨[⟨.ident, name, column⟩], ⟨column, rfl⟩, tokensFrom_name identifier separate column⟩

/-- A spelling of a connective or a parenthesis, whatever follows it. -/
structure Marks (kind : TokenKind) (mark : List Char) : Prop where
  visible : mark.head?.any Text.isBlank = false
  lexeme : ∀ rest, lexeme? (mark ++ rest) = some (kind, mark.length)

theorem Marks.tokensFrom {kind : TokenKind} {mark : List Char} (marks : Marks kind mark)
    (column : Nat) (rest : List Char) :
    tokensFrom column (mark ++ rest) =
      (tokensFrom (column + mark.length) rest).map (⟨kind, String.ofList mark, column⟩ :: ·) := by
  cases mark with
  | nil => simpa [lexeme?] using marks.lexeme []
  | cons c cs =>
      have visible : Text.isBlank c = false := by simpa using marks.visible
      exact tokensFrom_lexeme visible (marks.lexeme rest) column

theorem separate_space (rest : List Char) : Separate (' ' :: rest) :=
  separate_cons (by decide) rest

theorem Lexes.join {cs ds mark : List Char} {kind : TokenKind} {left right : List Token → Prop}
    (lhs : Lexes cs left) (marks : Marks kind mark) (rhs : Lexes ds right) :
    Lexes (cs ++ ' ' :: (mark ++ ' ' :: ds)) fun ts =>
      ∃ us t vs, ts = us ++ t :: vs ∧ left us ∧ t.kind = kind ∧ right vs := by
  intro column rest separate
  have blank : Text.isBlank ' ' = true := by decide
  obtain ⟨us, formedLeft, lexedLeft⟩ :=
    lhs column (' ' :: (mark ++ ' ' :: (ds ++ rest))) (separate_space _)
  obtain ⟨vs, formedRight, lexedRight⟩ :=
    rhs (column + cs.length + 1 + mark.length + 1) rest separate
  refine ⟨_, ⟨us, ⟨kind, String.ofList mark, column + cs.length + 1⟩, vs, rfl, formedLeft, rfl,
    formedRight⟩, ?_⟩
  have text : cs ++ ' ' :: (mark ++ ' ' :: ds) ++ rest =
      cs ++ ' ' :: (mark ++ ' ' :: (ds ++ rest)) := by simp
  have ending : column + (cs ++ ' ' :: (mark ++ ' ' :: ds)).length =
      column + cs.length + 1 + mark.length + 1 + ds.length := by
    simp only [List.length_append, List.length_cons]
    omega
  rw [text, ending, lexedLeft, tokensFrom_blank blank, marks.tokensFrom, tokensFrom_blank blank,
    lexedRight]
  cases tokensFrom (column + cs.length + 1 + mark.length + 1 + ds.length) rest with
  | error stray => rfl
  | ok more => simp [Except.map]

theorem marks_lparen : Marks .lparen ['('] where
  visible := rfl
  lexeme _ := rfl

theorem marks_rparen : Marks .rparen [')'] where
  visible := rfl
  lexeme _ := rfl

theorem Lexes.enclose {cs : List Char} {inner : List Token → Prop} (lexes : Lexes cs inner) :
    Lexes ('(' :: (cs ++ [')'])) fun ts =>
      ∃ l us r, ts = l :: (us ++ [r]) ∧ l.kind = .lparen ∧ inner us ∧ r.kind = .rparen := by
  intro column rest separate
  have closed : Separate (')' :: rest) := separate_cons (by decide) rest
  obtain ⟨us, formed, lexed⟩ := lexes (column + 1) (')' :: rest) closed
  refine ⟨_, ⟨⟨.lparen, "(", column⟩, us, ⟨.rparen, ")", column + 1 + cs.length⟩, rfl, rfl, formed,
    rfl⟩, ?_⟩
  have opening := marks_lparen.tokensFrom column (cs ++ ')' :: rest)
  have closing := marks_rparen.tokensFrom (column + 1 + cs.length) rest
  simp only [List.cons_append, List.nil_append, List.length_cons, List.length_nil, Nat.zero_add]
    at opening closing
  have text : '(' :: (cs ++ [')']) ++ rest = '(' :: (cs ++ ')' :: rest) := by simp
  have ending : column + ('(' :: (cs ++ [')'])).length = column + 1 + cs.length + 1 := by
    simp only [List.length_append, List.length_cons, List.length_nil]
    omega
  rw [text, ending, opening, lexed, closing]
  cases tokensFrom (column + 1 + cs.length + 1) rest with
  | error stray => rfl
  | ok more => simp [Except.map]

end Deduction.Formula
