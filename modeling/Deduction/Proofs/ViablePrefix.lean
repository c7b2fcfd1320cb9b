import Deduction.Proofs.Layout
import Deduction.Proofs.Recognition

/-!
Where syntax errors are reported.

Whatever the parser has read so far can be completed: an operand is added where one is due, and the
open parentheses are closed. So an error stands at the first token that cannot go on with a formula:
the text before it is the beginning of a formula, and with the token it is not.
-/

namespace Deduction.Formula

/-- Tokens that spell a formula, with one for the end of the text. -/
def Accepted (ts : List Token) : Prop :=
  ∃ us stop f, ts = us ++ [stop] ∧ stop.kind = .stop ∧ Spells .formula us f

/-! ### What can be completed -/

theorem Waits.exists_completion {stack : List Pending} {ts us : List Token} {f : Formula String}
    (waits : Waits stack ts) (spells : Spells .formula us f) :
    ∃ more g, (∀ t ∈ more, IsLexeme t.kind t.text) ∧ Spells .formula (ts ++ us ++ more) g := by
  induction waits generalizing us f with
  | nil => exact ⟨[], f, by simp, by simpa using spells⟩
  | @paren stack chain ts vs ws t _ disjuncts conjuncts opening ih =>
      have operand := Spells.paren (r := ⟨.rparen, ")", 0⟩) opening spells rfl
      obtain ⟨more, g, lexemes, spelled⟩ :=
        ih (.disjunction (disjuncts.joinDisj (conjuncts.joinConj operand)))
      refine ⟨⟨.rparen, ")", 0⟩ :: more, g, ?_, by simpa using spelled⟩
      exact List.forall_mem_cons.mpr ⟨.mark (by decide), lexemes⟩
  | @arrow stack lhs ts vs t _ left arrow ih =>
      obtain ⟨more, g, lexemes, spelled⟩ := ih (.impl left arrow spells)
      exact ⟨more, g, lexemes, by simpa using spelled⟩

/-- What has led to a state is the beginning of a formula. -/
theorem State.Spelled.exists_completion {s : State} {ts : List Token} (spelled : s.Spelled ts) :
    ∃ more g, (∀ t ∈ more, IsLexeme t.kind t.text) ∧ Spells .formula (ts ++ more) g := by
  cases spelled with
  | operand chain waits disjuncts conjuncts =>
      have name : Spells .operand [⟨.ident, "p", 0⟩] (.var "p") := .name rfl
      obtain ⟨more, g, lexemes, spelled⟩ :=
        waits.exists_completion (.disjunction (disjuncts.joinDisj (conjuncts.joinConj name)))
      refine ⟨⟨.ident, "p", 0⟩ :: more, g, ?_, by simpa using spelled⟩
      exact List.forall_mem_cons.mpr ⟨.name (isIdentifier_iff.mp (by decide)), lexemes⟩
  | operator waits disjuncts reading =>
      obtain ⟨more, g, lexemes, spelled⟩ :=
        waits.exists_completion (.disjunction (disjuncts.joinDisj reading))
      exact ⟨more, g, lexemes, by simpa using spelled⟩

/-! ### What cannot follow -/

namespace State

theorem feed_of_le {limit wider : Nat} (le : limit ≤ wider) {s last : State} {ts : List Token}
    (fed : s.feed limit ts = .ok last) : s.feed wider ts = .ok last := by
  induction ts generalizing s with
  | nil => exact fed
  | cons t rest ih =>
      rcases step_eq_or_tooDeep le s t with same | deep
      · cases stepped : s.step wider t with
        | error e => simp [feed, same, stepped] at fed
        | ok next =>
            rw [feed_cons stepped]
            rw [feed_cons (same.trans stepped)] at fed
            exact ih fed
      · simp [feed, deep] at fed

theorem advance_stop_ne_ok {s next : State} {t : Token} (ending : t.kind = .stop) :
    s.advance t ≠ .ok next := by
  intro stepped
  cases moves_of_advance stepped <;> simp_all

/-- The machine neither goes on with a token nor ends with it, whatever the limit. -/
structure Refuses (s : State) (t : Token) : Prop where
  stays : ∀ next, s.advance t ≠ .ok next
  unfinished : t.kind = .stop → ∀ column f, s.close column ≠ .ok f

theorem refuses_of_step {limit : Nat} {s : State} {t : Token} {e : ParseError}
    (refused : s.step limit t = .error e) (shallow : ∀ column, e ≠ .tooDeep column)
    (inner : t.kind ≠ .stop) : s.Refuses t where
  stays next advanced := by
    rcases Nat.lt_or_ge limit s.stack.length with deep | fits
    · exact shallow t.column (Except.error.inj (refused.symm.trans (step_of_deep deep t)))
    · rw [step_of_fits fits, advanced] at refused
      cases refused
  unfinished ending := absurd ending inner

theorem close_eq_ok_iff {s : State} {column : Nat} {f : Formula String} :
    s.close column = .ok f ↔ ∃ disjuncts conjunction, s.mode = .operator disjuncts conjunction ∧
      finish s.stack disjuncts conjunction = ([], f) := by
  obtain ⟨stack, mode⟩ := s
  cases mode with
  | operand chain => simp [close]
  | operator disjuncts conjunction =>
      simp only [close]
      split <;> simp_all

theorem refuses_of_result {limit : Nat} {s : State} {t : Token} {last : Nat} {e : ParseError}
    (refused : s.result limit last = .error e) (shallow : ∀ column, e ≠ .tooDeep column)
    (ending : t.kind = .stop) : s.Refuses t where
  stays next := advance_stop_ne_ok ending
  unfinished _ column f finished := by
    rcases Nat.lt_or_ge limit s.stack.length with deep | fits
    · exact shallow last (Except.error.inj (refused.symm.trans (result_of_deep deep last)))
    · -- the column matters to errors only
      have finished' : s.close last = .ok f := close_eq_ok_iff.mpr (close_eq_ok_iff.mp finished)
      rw [result_of_fits fits, finished'] at refused
      cases refused

/-- No accepted tokens begin with those that have led to a state and one that it refuses. -/
theorem Refuses.not_accepted {limit : Nat} {before : List Token} {s : State} {t : Token}
    (refuses : s.Refuses t) (fed : State.start.feed limit before = .ok s)
    (more : List Token) : ¬ Accepted (before ++ t :: more) := by
  rintro ⟨us, stop, f, split, ending, spells⟩
  obtain ⟨wider, le, room⟩ : ∃ wider, limit ≤ wider ∧ us.length ≤ wider :=
    ⟨_, Nat.le_max_left _ _, Nat.le_max_right _ _⟩
  obtain ⟨last, fedAll, finished⟩ := run_eq_ok_iff.mp (spells.run room 0)
  have fedBefore := feed_of_le le fed
  rcases List.eq_nil_or_concat more with rfl | ⟨others, stop', rfl⟩
  · -- the token is the one for the end
    obtain ⟨rfl, rfl⟩ : before = us ∧ t = stop := by simpa using List.append_inj' split rfl
    obtain rfl : s = last := Except.ok.inj (fedBefore.symm.trans fedAll)
    exact refuses.unfinished ending 0 f (result_eq_ok_iff.mp finished).2
  · obtain rfl : before ++ t :: others = us := by
      have split' : (before ++ t :: others) ++ [stop'] = us ++ [stop] := by simpa using split
      exact (List.append_inj' split' rfl).1
    rw [feed_append fedBefore] at fedAll
    cases stepped : s.step wider t with
    | ok next => exact refuses.stays next (step_eq_ok_iff.mp stepped).2
    | error e => simp [feed, stepped] at fedAll

/-- Where the parser stops: at a token that it cannot go on with, or at the end. -/
theorem exists_stop_of_run {limit column : Nat} {s : State} {ts : List Token} {e : ParseError}
    (failed : s.run limit column ts = .error e) :
    ∃ k last, s.feed limit (ts.take k) = .ok last ∧
      (k = ts.length ∧ last.result limit column = .error e ∨
        ∃ t, ts[k]? = some t ∧ last.step limit t = .error e) := by
  induction ts generalizing s with
  | nil => exact ⟨0, s, rfl, .inl ⟨rfl, failed⟩⟩
  | cons t rest ih =>
      cases stepped : s.step limit t with
      | error e' =>
          obtain rfl : e' = e := by simpa [run, stepped] using failed
          exact ⟨0, s, rfl, .inr ⟨t, rfl, stepped⟩⟩
      | ok next =>
          obtain ⟨k, last, fed, stops⟩ := ih (by simpa [run, stepped] using failed)
          refine ⟨k + 1, last, ?_, by simpa using stops⟩
          rw [List.take_succ_cons, feed_cons stepped, fed]

end State

/-! ### Texts up to a token -/

theorem IsLexeme.kind_ne_stop {kind : TokenKind} {text : String} (lexeme : IsLexeme kind text) :
    kind ≠ .stop := by
  rintro rfl
  cases lexeme with
  | mark mem => simp [TokenKind.spellings] at mem

namespace Layout

/-- The layout of the text before the piece at an index. -/
def cut (n : Nat) (l : Layout) : Layout :=
  ⟨l.pieces.take n, match l.pieces[n]? with
    | some p => p.gap
    | none => l.ending⟩

theorem Proper.cut {l : Layout} (proper : l.Proper) (n : Nat) : (l.cut n).Proper := by
  refine ⟨fun p mem => proper.pieces p (List.mem_of_mem_take mem), proper.apart.take n, ?_⟩
  cases found : l.pieces[n]? with
  | none => simpa [Layout.cut, found] using proper.ending
  | some p => simpa [Layout.cut, found] using (proper.pieces p (List.mem_of_getElem? found)).blank

theorem tokensOf_take (column n : Nat) (pieces : List Piece) :
    tokensOf column (pieces.take n) = (tokensOf column pieces).take n := by
  induction pieces generalizing column n with
  | nil => simp [tokensOf]
  | cons p more ih =>
      cases n with
      | zero => rfl
      | succ n => simp [tokensOf, ih]

/-- A token stands where the layout before it ends, and so does the end of the text. -/
theorem column_eq {pieces : List Piece} {ending : List Char} {column n : Nat} {stop t : Token}
    (last : stop.column = column + (chars ⟨pieces, ending⟩).length)
    (found : (tokensOf column pieces ++ [stop])[n]? = some t) :
    t.column = column + (cut n ⟨pieces, ending⟩).chars.length := by
  induction pieces generalizing column n with
  | nil =>
      cases n with
      | zero =>
          obtain rfl : stop = t := by simpa [tokensOf] using found
          simpa [cut] using last
      | succ n => simp [tokensOf] at found
  | cons p more ih =>
      cases n with
      | zero =>
          obtain rfl : ⟨p.kind, p.text, column + p.gap.length⟩ = t := by
            simpa [tokensOf] using found
          simp [cut, chars]
      | succ n =>
          have later : stop.column = column + p.chars.length + (chars ⟨more, ending⟩).length := by
            simpa [chars, Nat.add_assoc] using last
          have placed := ih later (by simpa [tokensOf] using found)
          simpa [cut, chars, Nat.add_assoc] using placed

theorem cut_prefix (n : Nat) (l : Layout) : (l.cut n).chars <+: l.chars := by
  obtain ⟨pieces, ending⟩ := l
  induction pieces generalizing n with
  | nil => simp [cut, chars]
  | cons p more ih =>
      cases n with
      | zero => simp [cut, chars, Piece.chars]
      | succ n => simpa [cut, chars] using ih n

theorem Proper.isLexeme_of_mem_tokensOf {l : Layout} (proper : l.Proper) {column : Nat} {t : Token}
    (mem : t ∈ tokensOf column l.pieces) : IsLexeme t.kind t.text := by
  obtain ⟨pieces, ending⟩ := l
  induction pieces generalizing column with
  | nil => simp [tokensOf] at mem
  | cons p more ih =>
      obtain ⟨first, -, others⟩ := proper_cons_iff.mp proper
      rcases List.mem_cons.mp mem with rfl | mem
      · exact first.lexeme
      · exact ih others mem

theorem Proper.reaches {l : Layout} (proper : l.Proper) {rest : List Char}
    (separate : Separate rest) : l.Reaches rest := by
  intro _ p mem c next
  have lexeme := (proper.pieces p (List.mem_of_getLast? mem)).lexeme
  exact lexeme.not_push (fun _ => separate) next

end Layout

/-- Tokens with a space before each of them. -/
def spaced (ts : List Token) : Layout := ⟨ts.map fun t => ⟨[' '], t.kind, t.text⟩, []⟩

theorem proper_spaced {ts : List Token} (lexemes : ∀ t ∈ ts, IsLexeme t.kind t.text) :
    (spaced ts).Proper := by
  refine ⟨?_, ?_, by simp [spaced]⟩
  · intro p mem
    obtain ⟨t, listed, rfl⟩ := List.mem_map.mp mem
    exact ⟨List.forall_mem_singleton.mpr (by decide), lexemes t listed⟩
  · apply (List.isChain_map _).mpr
    exact (List.pairwise_of_forall fun t u => by simp).isChain

theorem reading_spaced (column : Nat) (ts : List Token) :
    (Layout.tokensOf column (spaced ts).pieces).map Token.reading = ts.map Token.reading := by
  induction ts generalizing column with
  | nil => rfl
  | cons t rest ih => exact congrArg (_ :: ·) (ih _)

theorem separate_spaced (ts : List Token) : Separate (spaced ts).chars := by
  cases ts with
  | nil => simp [Separate, spaced, Layout.chars]
  | cons t rest => exact separate_space _

/-- What completes the tokens of a layout can be written after its text. -/
theorem exists_text_of_spells {l : Layout} (proper : l.Proper) {more : List Token}
    (lexemes : ∀ t ∈ more, IsLexeme t.kind t.text) {f : Formula String}
    (spells : Spells .formula (l.tokens ++ more) f) :
    ∃ rest others, tokenize (String.ofList l.chars ++ rest) = .ok (l.tokens ++ others) ∧
      parseAny (String.ofList l.chars ++ rest) = .ok f := by
  have lexed : tokenize (String.ofList l.chars ++ String.ofList (spaced more).chars) =
      .ok (l.tokens ++ Layout.tokensOf (1 + l.chars.length) (spaced more).pieces) := by
    rw [tokenize, String.toList_append, String.toList_ofList, String.toList_ofList,
      proper.tokensFrom (proper.reaches (separate_spaced more)),
      (proper_spaced lexemes).tokensFrom_chars]
    rfl
  refine ⟨_, _, lexed, parseAny_eq_ok_iff.mpr ⟨_, lexed, spells.of_reading ?_⟩⟩
  rw [List.map_append, List.map_append, reading_spaced]

theorem ParseError.PointsAt.column_eq {t : Token} {e : ParseError} (points : e.PointsAt t) :
    e.column = t.column := by
  cases points <;> rfl

/-- The token at which the parser fails is refused by the state before it. -/
theorem exists_refused_of_run {limit : Nat} {ts : List Token} {stop : Token} {e : ParseError}
    (inner : ∀ t ∈ ts, t.kind ≠ .stop) (ending : stop.kind = .stop)
    (failed : State.start.run limit stop.column ts = .error e)
    (shallow : ∀ column, e ≠ .tooDeep column) :
    ∃ k t s, (ts ++ [stop])[k]? = some t ∧ e.PointsAt t ∧
      State.start.feed limit (ts.take k) = .ok s ∧ s.Refuses t := by
  obtain ⟨k, s, fed, ⟨rfl, refused⟩ | ⟨t, found, refused⟩⟩ := State.exists_stop_of_run failed
  · exact ⟨ts.length, stop, s, by simp, State.pointsAt_of_result ending refused, fed,
      State.refuses_of_result refused shallow ending⟩
  · have listed := List.mem_of_getElem? found
    refine ⟨k, t, s, ?_, State.pointsAt_of_step refused, fed,
      State.refuses_of_step refused shallow (inner t listed)⟩
    rw [List.getElem?_append_left (List.getElem?_eq_some_iff.mp found).1, found]

/-- The token at an index, the end of the text included, is the first that cannot go on with a
formula: what is before it can be completed, as tokens and as a text, but not with the token. -/
structure FirstMisfit (text : String) (ts : List Token) (k : Nat) (t : Token) : Prop where
  found : (ts ++ [endOf text])[k]? = some t
  within : 1 ≤ t.column ∧ t.column ≤ text.length + 1
  viable : ∃ more, Accepted (ts.take k ++ more)
  completed : ∃ rest others f,
    tokenize (String.ofList (span text 1 t.column) ++ rest) = .ok (ts.take k ++ others) ∧
      parseAny (String.ofList (span text 1 t.column) ++ rest) = .ok f
  misfit : ∀ more, ¬ Accepted (ts.take k ++ t :: more)

/-- A syntax error is reported at the first token that cannot go on with a formula. A limit on
nesting is the only exception, and none for texts that are not longer than it. -/
theorem parseAny_error_at_first_misfit [Limits] {text : String} {ts : List Token} {e : ParseError}
    (lexed : tokenize text = .ok ts) (failed : parseAny text = .error e) :
    (∃ k t, FirstMisfit text ts k t ∧ e.column = t.column) ∧
    (parse text = parseAny text ∨
      Limits.parsing < text.length ∧ ∃ column, parse text = .error (.tooDeep column)) := by
  refine ⟨?_, parseWithin_eq_or_tooDeep Limits.parsing text⟩
  obtain ⟨l, proper, whole, rfl⟩ := exists_layout_of_tokenize lexed
  have shallow : ∀ column, e ≠ .tooDeep column :=
    fun column deep => parseAny_ne_tooDeep text column (deep ▸ failed)
  have inner : ∀ t ∈ l.tokens, t.kind ≠ .stop :=
    fun t mem => (proper.isLexeme_of_mem_tokensOf mem).kind_ne_stop
  obtain ⟨k, t, s, found, points, fed, refuses⟩ :=
    exists_refused_of_run inner rfl ((parseAny_eq_run lexed).symm.trans failed) shallow
  obtain ⟨more, f, lexemes, spells⟩ := (State.spelled_start.feed fed).exists_completion
  rw [List.nil_append] at spells
  -- the text before the token, as a layout
  have length : l.chars.length = text.length := by rw [whole, String.length_toList]
  have column : t.column = 1 + (l.cut k).chars.length :=
    Layout.column_eq (by simp [endOf, length, Nat.add_comm]) found
  have shorter := (l.cut_prefix k).length_le
  have beginning : span text 1 t.column = (l.cut k).chars := by
    rw [span, ← whole, column, Nat.add_sub_cancel_left, Nat.sub_self, List.drop_zero,
      ← List.prefix_iff_eq_take.mp (l.cut_prefix k)]
  have tokens : (l.cut k).tokens = l.tokens.take k := Layout.tokensOf_take 1 k l.pieces
  rw [← tokens] at spells
  obtain ⟨rest, others, lexed', read⟩ := exists_text_of_spells (proper.cut k) lexemes spells
  rw [tokens] at lexed' spells
  rw [← beginning] at lexed' read
  have accepted : Accepted (l.tokens.take k ++ (more ++ [endOf text])) :=
    ⟨_, endOf text, f, (List.append_assoc _ _ _).symm, rfl, spells⟩
  exact ⟨k, t, ⟨found, by omega, ⟨_, accepted⟩, ⟨rest, others, f, lexed', read⟩,
    refuses.not_accepted fed⟩, points.column_eq⟩

/-- An operand is missing before a parenthesis, and the text goes wrong once more after it. -/
theorem missingOperand_misfit :
    parseAny "(p & ) q" = .error (.expectedOperand .rparen 6) ∧
      ∃ k t, FirstMisfit "(p & ) q" [⟨.lparen, "(", 1⟩, ⟨.ident, "p", 2⟩, ⟨.and, "&", 4⟩,
        ⟨.rparen, ")", 6⟩, ⟨.ident, "q", 8⟩] k t ∧ t.column = 6 := by
  have lexed : tokenize "(p & ) q" = .ok [⟨.lparen, "(", 1⟩, ⟨.ident, "p", 2⟩, ⟨.and, "&", 4⟩,
      ⟨.rparen, ")", 6⟩, ⟨.ident, "q", 8⟩] := by decide +kernel
  have failed : parseAny "(p & ) q" = .error (.expectedOperand .rparen 6) := by decide +kernel
  obtain ⟨⟨k, t, misfit, column⟩, -⟩ :=
    @parseAny_error_at_first_misfit (.uniform 0) _ _ _ lexed failed
  exact ⟨failed, k, t, misfit, column.symm⟩

end Deduction.Formula
