import Deduction.Proofs.Layout

/-!
The printer writes no parentheses that could be left out.

What is printed at a level of the grammar has parentheses only around formulas that are too weak for
it, and tokens that spell a formula at a level have at least as many: by induction on the grammar,
each pair that is printed is forced by the place where it stands.
-/

namespace Deduction.Formula

/-! ### Parentheses of a formula -/

/-- One if a formula needs parentheses for its strength to reach the one that is wanted. -/
def pair (own wanted : Nat) : Nat := if own < wanted then 1 else 0

theorem pair_le_one (own wanted : Nat) : pair own wanted ≤ 1 := by
  unfold pair
  split <;> decide

theorem pair_mono (own : Nat) {weak strong : Nat} (le : weak ≤ strong) :
    pair own weak ≤ pair own strong := by
  by_cases needed : own < weak
  · simp [pair, needed, Nat.lt_of_lt_of_le needed le]
  · simp [pair, needed]

/-- The pairs of parentheses that the printer writes where the given strength is wanted. -/
def groups (strength : Nat) : Formula String → Nat
  | .var _ => 0
  | .impl lhs rhs => lhs.groups 2 + rhs.groups 1 + pair 1 strength
  | .disj lhs rhs => lhs.groups 2 + rhs.groups 3 + pair 2 strength
  | .conj lhs rhs => lhs.groups 3 + rhs.groups 4 + pair 3 strength

theorem groups_mono (f : Formula String) {weak strong : Nat} (le : weak ≤ strong) :
    f.groups weak ≤ f.groups strong := by
  cases f with
  | var _ => exact Nat.le_refl 0
  | conj lhs rhs | disj lhs rhs | impl lhs rhs => exact Nat.add_le_add_left (pair_mono _ le) _

/-- One pair around a formula makes up for any difference in strength. -/
theorem groups_le_succ (f : Formula String) (weak strong : Nat) :
    f.groups strong ≤ f.groups weak + 1 := by
  cases f with
  | var _ => exact Nat.zero_le _
  | conj lhs rhs | disj lhs rhs | impl lhs rhs =>
      exact Nat.add_le_add (Nat.le_add_right _ _) (pair_le_one _ strong)

/-! ### Parentheses among tokens -/

def Token.opens (t : Token) : Bool := t.kind = .lparen

theorem Spells.groups_le {level : Level} {ts : List Token} {f : Formula String}
    (spells : Spells level ts f) : f.groups level.strength ≤ ts.countP Token.opens := by
  induction spells with
  | name _ => exact Nat.zero_le _
  | @paren l ts r f opening _ _ ih =>
      have inner : ts.countP Token.opens + 1 ≤ (l :: (ts ++ [r])).countP Token.opens := by
        simp [Token.opens, opening]
      exact Nat.le_trans (f.groups_le_succ _ _) (Nat.le_trans (Nat.succ_le_succ ih) inner)
  | @operand ts f _ ih | @conjunction ts f _ ih | @disjunction ts f _ ih =>
      exact Nat.le_trans (f.groups_mono (by decide)) ih
  | conj _ _ _ ihl ihr | disj _ _ _ ihl ihr | impl _ _ _ ihl ihr =>
      simp only [List.countP_append, List.countP_cons]
      simp only [groups, pair, Level.strength, Nat.lt_irrefl, if_false] at ihl ihr ⊢
      omega

/-! ### Parentheses in texts -/

theorem paren_notMem_of_isVariableName {name : String} (named : IsVariableName name) :
    '(' ∉ name.toList := by
  obtain ⟨c, rest, chars, start, parts⟩ := named
  rw [chars]
  intro mem
  rcases List.mem_cons.mp mem with rfl | mem
  · exact absurd start (by decide)
  · exact absurd (parts '(' mem) (by decide)

theorem IsLexeme.count_paren {kind : TokenKind} {text : String} (lexeme : IsLexeme kind text) :
    text.toList.count '(' = if kind = .lparen then 1 else 0 := by
  cases lexeme with
  | name named => exact List.count_eq_zero.mpr (paren_notMem_of_isVariableName named)
  | @mark kind text mem =>
      have counts : ∀ text ∈ kind.spellings,
          text.toList.count '(' = if kind = .lparen then 1 else 0 := by
        cases kind <;> decide
      exact counts text mem

theorem Piece.Proper.count_paren {p : Piece} (proper : p.Proper) :
    p.chars.count '(' = if p.kind = .lparen then 1 else 0 := by
  have gap : p.gap.count '(' = 0 := by
    rw [List.count_eq_zero]
    intro mem
    exact absurd (proper.blank '(' mem) (by decide)
  rw [Piece.chars, List.count_append, gap, proper.lexeme.count_paren, Nat.zero_add]

/-- The parentheses of a text are those among its tokens. -/
theorem Layout.Proper.count_paren {l : Layout} (proper : l.Proper) (column : Nat) :
    l.chars.count '(' = (tokensOf column l.pieces).countP Token.opens := by
  obtain ⟨pieces, ending⟩ := l
  induction pieces generalizing column with
  | nil =>
      rw [tokensOf, List.countP_nil, List.count_eq_zero]
      intro mem
      exact absurd (proper.ending '(' (by simpa [chars] using mem)) (by decide)
  | cons p more ih =>
      obtain ⟨first, -, others⟩ := proper_cons_iff.mp proper
      rw [chars_cons, List.count_append, first.count_paren, ih (column + p.chars.length) others,
        tokensOf, List.countP_cons]
      simp [Token.opens, Nat.add_comm]

theorem groups_le_count_of_parseAny {text : String} {f : Formula String}
    (read : parseAny text = .ok f) : f.groups 1 ≤ text.toList.count '(' := by
  obtain ⟨ts, lexed, spells⟩ := parseAny_eq_ok_iff.mp read
  obtain ⟨l, proper, whole, rfl⟩ := exists_layout_of_tokenize lexed
  rw [← whole, proper.count_paren 1]
  exact spells.groups_le

/-! ### Printed texts -/

theorem count_parenthesize (needed : Bool) (text : String) :
    (parenthesize needed text).toList.count '(' =
      text.toList.count '(' + if needed then 1 else 0 := by
  cases needed <;> simp [parenthesize]

theorem count_renderAt {symbols : Symbols}
    (plain : '(' ∉ symbols.conj.toList ∧ '(' ∉ symbols.disj.toList ∧ '(' ∉ symbols.impl.toList)
    {f : Formula String} (named : ∀ name ∈ f.occurrences, IsVariableName name) (strength : Nat) :
    (f.renderAt symbols strength).toList.count '(' = f.groups strength := by
  obtain ⟨conj, disj, impl⟩ := plain
  induction f generalizing strength with
  | var name =>
      have isName := named name (by simp [occurrences])
      exact List.count_eq_zero.mpr (paren_notMem_of_isVariableName isName)
  | conj lhs rhs ihl ihr | disj lhs rhs ihl ihr | impl lhs rhs ihl ihr =>
      have left := ihl fun name mem => named name (List.mem_append_left _ mem)
      have right := ihr fun name mem => named name (List.mem_append_right _ mem)
      simp [renderAt, between, count_parenthesize, groups, pair, left, right, conj, disj, impl,
        List.count_eq_zero.mpr]

theorem paren_notMem_select (ascii : Bool) :
    '(' ∉ (Symbols.select ascii).conj.toList ∧ '(' ∉ (Symbols.select ascii).disj.toList ∧
      '(' ∉ (Symbols.select ascii).impl.toList := by
  cases ascii <;> decide

theorem count_render (ascii : Bool) {f : Formula String}
    (named : ∀ name ∈ f.occurrences, IsVariableName name) :
    (f.render (.select ascii)).toList.count '(' = f.groups 1 := by
  rw [render_eq_renderAt_formula]
  exact count_renderAt (paren_notMem_select ascii) named _

/-- What is printed reads back, and no other text that reads as the formula has fewer opening
parentheses. -/
theorem render_fewest_parens [Limits] (ascii : Bool) {f : Formula String}
    (named : ∀ name ∈ f.occurrences, IsVariableName name) :
    parseAny (f.render (.select ascii)) = .ok f ∧
      ∀ text, parseAny text = .ok f ∨ parse text = .ok f →
        (f.render (.select ascii)).toList.count '(' ≤ text.toList.count '(' := by
  have identifiers : ∀ name ∈ f.occurrences, isIdentifier name = true :=
    fun name mem => isIdentifier_iff.mpr (named name mem)
  refine ⟨parseAny_render (legible_select ascii) identifiers, fun text read => ?_⟩
  rw [count_render ascii named]
  refine groups_le_count_of_parseAny ?_
  rcases read with read | read
  · exact read
  · exact parseAny_of_parse read

theorem grouped_fewest_parens :
    grouped.render (.select false) = "(p → q') → (_r ∨ s1) ∧ t" ∧
      parseAny "((p) -> q') -> (((_r | s1)) & t)" = .ok grouped ∧
      (grouped.render (.select false)).toList.count '(' ≤
        "((p) -> q') -> (((_r | s1)) & t)".toList.count '(' := by
  have named : ∀ name ∈ grouped.occurrences, IsVariableName name := by
    have listed : ∀ name ∈ grouped.occurrences, isIdentifier name = true := by decide
    exact fun name mem => isIdentifier_iff.mp (listed name mem)
  have read : parseAny "((p) -> q') -> (((_r | s1)) & t)" = .ok grouped := by decide +kernel
  exact ⟨rfl, read, (@render_fewest_parens (.uniform 0) false _ named).2 _ (.inl read)⟩

end Deduction.Formula
