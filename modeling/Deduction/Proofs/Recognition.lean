import Deduction.Proofs.Grammar

/-!
The parser as a recognizer of the grammar.

A list of tokens spells at most one formula, and it spells it by the kinds of its tokens and by the
names among them. Where the parser refuses a text, it does so at one of the tokens or at the end.
-/

namespace Deduction.Formula

/-! ### What the grammar sees -/

/-- The kind of a token and, of an identifier, the name. -/
def Token.reading (t : Token) : TokenKind × Option String :=
  (t.kind, if t.kind = .ident then some t.text else none)

theorem Token.kind_eq_of_reading {t u : Token} (same : t.reading = u.reading) : t.kind = u.kind :=
  congrArg Prod.fst same

theorem Token.text_eq_of_reading {t u : Token} (same : t.reading = u.reading)
    (ident : t.kind = .ident) : t.text = u.text := by
  have ident' : u.kind = .ident := by rw [← Token.kind_eq_of_reading same, ident]
  simpa [Token.reading, ident, ident'] using same

/-- Tokens that read like a list with a connective in it have that connective at its place. -/
theorem exists_split_of_reading {ts us vs : List Token} {t : Token}
    (same : (ts ++ t :: us).map Token.reading = vs.map Token.reading) :
    ∃ ts' t' us', vs = ts' ++ t' :: us' ∧ ts.map Token.reading = ts'.map Token.reading ∧
      t.kind = t'.kind ∧ us.map Token.reading = us'.map Token.reading := by
  rw [List.map_append, List.map_cons] at same
  obtain ⟨ts', rest, rfl, left, right⟩ := List.map_eq_append_iff.mp same.symm
  obtain ⟨t', us', rfl, read, later⟩ := List.map_eq_cons_iff.mp right
  exact ⟨ts', t', us', rfl, left.symm, (Token.kind_eq_of_reading read).symm, later.symm⟩

/-- Spelling does not depend on the columns of tokens or on the spellings of connectives. -/
theorem Spells.of_reading {level : Level} {ts us : List Token} {f : Formula String}
    (spells : Spells level ts f) (same : ts.map Token.reading = us.map Token.reading) :
    Spells level us f := by
  induction spells generalizing us with
  | @name t ident =>
      obtain ⟨u, rfl, read⟩ : ∃ u, us = [u] ∧ u.reading = t.reading := by
        simpa [eq_comm] using same
      rw [Token.text_eq_of_reading read.symm ident]
      exact .name (by rw [Token.kind_eq_of_reading read, ident])
  | @paren l ts r f opening _ closing ih =>
      obtain ⟨before, l', rest, rfl, none, left, inner⟩ := @exists_split_of_reading [] _ _ _ same
      obtain ⟨ts', r', after, rfl, spelled, right, empty⟩ := exists_split_of_reading inner
      obtain rfl : before = [] := by simpa using none.symm
      obtain rfl : after = [] := by simpa using empty.symm
      exact .paren (left ▸ opening) (ih spelled) (right ▸ closing)
  | operand _ ih => exact .operand (ih same)
  | conj _ and _ ihl ihr =>
      obtain ⟨ts', t', us', rfl, left, kind, right⟩ := exists_split_of_reading same
      exact .conj (ihl left) (kind ▸ and) (ihr right)
  | conjunction _ ih => exact .conjunction (ih same)
  | disj _ or _ ihl ihr =>
      obtain ⟨ts', t', us', rfl, left, kind, right⟩ := exists_split_of_reading same
      exact .disj (ihl left) (kind ▸ or) (ihr right)
  | disjunction _ ih => exact .disjunction (ih same)
  | impl _ arrow _ ihl ihr =>
      obtain ⟨ts', t', us', rfl, left, kind, right⟩ := exists_split_of_reading same
      exact .impl (ihl left) (kind ▸ arrow) (ihr right)

/-- The grammar is unambiguous, since the parser reads whatever is spelled. -/
theorem Spells.unique {ts : List Token} {f g : Formula String} (left : Spells .formula ts f)
    (right : Spells .formula ts g) : f = g := by
  have readLeft := left.run (Nat.le_refl ts.length) 0
  have readRight := right.run (Nat.le_refl ts.length) 0
  exact Except.ok.inj (readLeft.symm.trans readRight)

/-! ### Where the parser stops -/

/-- The error is about the token: what was found is its kind, at its column, or there is too much
open before it. -/
inductive ParseError.PointsAt (t : Token) : ParseError → Prop
  | expectedOperand : PointsAt t (.expectedOperand t.kind t.column)
  | expected {wanted : TokenKind} : PointsAt t (.expected wanted t.kind t.column)
  | tooDeep : PointsAt t (.tooDeep t.column)

namespace State

/-- The index of the token at which the parser comes to its answer. The end of the text stands after
the last token. -/
def reach (limit : Nat) (s : State) : List Token → Nat
  | [] => 0
  | t :: rest =>
      match s.step limit t with
      | .error _ => 0
      | .ok next => next.reach limit rest + 1

theorem reach_eq_length_of_run {limit column : Nat} {s : State} {ts : List Token}
    {f : Formula String} (read : s.run limit column ts = .ok f) :
    s.reach limit ts = ts.length := by
  induction ts generalizing s with
  | nil => rfl
  | cons t rest ih =>
      cases stepped : s.step limit t with
      | error e => simp [run, stepped] at read
      | ok next =>
          simp only [run, stepped] at read
          simp [reach, stepped, ih read]

theorem pointsAt_of_advance {s : State} {t : Token} {e : ParseError}
    (failed : s.advance t = .error e) : e.PointsAt t := by
  obtain ⟨stack, mode⟩ := s
  cases mode with
  | operand chain =>
      cases kind : t.kind <;> simp only [advance, kind, reduceCtorEq] at failed
      all_goals
        obtain rfl := Except.error.inj failed
        exact kind ▸ .expectedOperand
  | operator disjuncts conjunction =>
      cases kind : t.kind <;> simp only [advance, kind, reduceCtorEq] at failed
      -- what is left closes a parenthesis or should end the text
      all_goals
        split at failed <;> simp only [reduceCtorEq, Except.error.injEq] at failed
        all_goals
          subst failed
          exact kind ▸ .expected

theorem pointsAt_of_close {s : State} {stop : Token} {e : ParseError} (ending : stop.kind = .stop)
    (failed : s.close stop.column = .error e) : e.PointsAt stop := by
  obtain ⟨stack, mode⟩ := s
  cases mode with
  | operand chain =>
      obtain rfl := Except.error.inj failed
      exact ending ▸ .expectedOperand
  | operator disjuncts conjunction =>
      simp only [close] at failed
      split at failed <;> simp only [reduceCtorEq, Except.error.injEq] at failed
      subst failed
      exact ending ▸ .expected

theorem pointsAt_of_step {limit : Nat} {s : State} {t : Token} {e : ParseError}
    (failed : s.step limit t = .error e) : e.PointsAt t := by
  rcases Nat.lt_or_ge limit s.stack.length with deep | fits
  · obtain rfl := Except.error.inj ((step_of_deep deep t).symm.trans failed)
    exact .tooDeep
  · exact pointsAt_of_advance ((step_of_fits fits t).symm.trans failed)

theorem pointsAt_of_result {limit : Nat} {s : State} {stop : Token} {e : ParseError}
    (ending : stop.kind = .stop) (failed : s.result limit stop.column = .error e) :
    e.PointsAt stop := by
  rcases Nat.lt_or_ge limit s.stack.length with deep | fits
  · obtain rfl := Except.error.inj ((result_of_deep deep _).symm.trans failed)
    exact .tooDeep
  · exact pointsAt_of_close ending ((result_of_fits fits _).symm.trans failed)

/-- The parser never looks beyond the end of the text: what it refuses is the token at which it
stops. -/
theorem pointsAt_of_run {limit : Nat} {s : State} {ts : List Token} {stop : Token} {e : ParseError}
    (ending : stop.kind = .stop) (failed : s.run limit stop.column ts = .error e) :
    ∃ t, (ts ++ [stop])[s.reach limit ts]? = some t ∧ e.PointsAt t := by
  induction ts generalizing s with
  | nil => exact ⟨stop, rfl, pointsAt_of_result ending failed⟩
  | cons t rest ih =>
      cases stepped : s.step limit t with
      | error e' =>
          obtain rfl : e' = e := by simpa [run, stepped] using failed
          exact ⟨t, by simp [reach, stepped], pointsAt_of_step stepped⟩
      | ok next =>
          simp only [run, stepped] at failed
          obtain ⟨u, found, points⟩ := ih failed
          exact ⟨u, by simpa [reach, stepped] using found, points⟩

/-- Nothing behind the token at which the parser stops is looked at. -/
theorem run_of_reach_lt {limit last : Nat} {s : State} {ts : List Token} {e : ParseError}
    (failed : s.run limit last ts = .error e) (inside : s.reach limit ts < ts.length)
    (column : Nat) (more : List Token) :
    s.run limit column (ts.take (s.reach limit ts + 1) ++ more) = .error e := by
  induction ts generalizing s with
  | nil => simp at inside
  | cons t rest ih =>
      cases stepped : s.step limit t with
      | error e' =>
          obtain rfl : e' = e := by simpa [run, stepped] using failed
          simp [run, reach, stepped]
      | ok next =>
          simp only [run, stepped] at failed
          simp only [reach, stepped, List.length_cons, Nat.add_lt_add_iff_right] at inside
          simpa [run, reach, stepped] using ih failed inside

end State

/-! ### Texts -/

theorem parseAny_eq_run {text : String} {ts : List Token} (lexed : tokenize text = .ok ts) :
    parseAny text = State.start.run text.length (endOf text).column ts := by
  simp [parseAny, parseWithin, lexed]

/-- The parser accepts exactly the texts whose tokens spell a formula, which is then the only one,
and refuses all others with an error other than the one for deep nesting. It stops at the end of a
text that it accepts, and never later: an error is about the token at which it stops, whatever comes
after it. Blanks and the spellings of connectives do not matter. A limit on nesting is the only
exception, and none for texts that are not longer than it. -/
theorem parseAny_iff_spells [Limits] (text : String) :
    (∀ f, parseAny text = .ok f ↔ ∃ ts, tokenize text = .ok ts ∧ Spells .formula ts f) ∧
    ((¬ ∃ ts f, tokenize text = .ok ts ∧ Spells .formula ts f) ↔
      ∃ e, parseAny text = .error e ∧ ∀ column, e ≠ .tooDeep column) ∧
    (∀ ts f g, Spells .formula ts f → Spells .formula ts g → f = g) ∧
    (∀ ts, tokenize text = .ok ts →
      let index := State.start.reach text.length ts
      (∀ f, parseAny text = .ok f → index = ts.length) ∧
        ∀ e, parseAny text = .error e →
          (∃ t, (ts ++ [endOf text])[index]? = some t ∧ e.PointsAt t) ∧
          (index < ts.length → ∀ column more,
            State.start.run text.length column (ts.take (index + 1) ++ more) = .error e)) ∧
    (∀ other ts us, tokenize text = .ok ts → tokenize other = .ok us →
      ts.map Token.reading = us.map Token.reading →
        ∀ f, parseAny text = .ok f ↔ parseAny other = .ok f) ∧
    (parse text = parseAny text ∨
      Limits.parsing < text.length ∧ ∃ column, parse text = .error (.tooDeep column)) := by
  refine ⟨fun f => parseAny_eq_ok_iff, ?_, fun ts f g left right => left.unique right, ?_, ?_,
    parseWithin_eq_or_tooDeep Limits.parsing text⟩
  · cases read : parseAny text with
    | ok f =>
        obtain ⟨ts, lexed, spells⟩ := parseAny_eq_ok_iff.mp read
        simp only [reduceCtorEq, false_and, exists_false, iff_false, not_not]
        exact ⟨ts, f, lexed, spells⟩
    | error e =>
        refine ⟨fun _ => ⟨e, rfl, fun column deep => ?_⟩, ?_⟩
        · exact parseAny_ne_tooDeep text column (deep ▸ read)
        rintro - ⟨ts, f, lexed, spells⟩
        simp [parseAny_eq_ok_iff.mpr ⟨ts, lexed, spells⟩] at read
  · intro ts lexed index
    rw [parseAny_eq_run lexed]
    refine ⟨fun f read => State.reach_eq_length_of_run read, fun e failed => ⟨?_, fun inside => ?_⟩⟩
    · exact State.pointsAt_of_run rfl failed
    · exact State.run_of_reach_lt failed inside
  · intro other ts us lexed lexed' same f
    simp only [parseAny_eq_ok_iff, lexed, lexed', Except.ok.injEq, exists_eq_left']
    exact ⟨fun spells => spells.of_reading same, fun spells => spells.of_reading same.symm⟩

/-- One formula in two spellings, and a text that ends too early. -/
theorem spellings_read_alike :
    parseAny "p&q=>p" = .ok (.impl (.conj (.var "p") (.var "q")) (.var "p")) ∧
      parseAny "p ∧ q → p" = .ok (.impl (.conj (.var "p") (.var "q")) (.var "p")) ∧
      ∃ e, parseAny "(p" = .error e ∧ e.PointsAt (endOf "(p") := by
  have close : tokenize "p&q=>p" =
      .ok [⟨.ident, "p", 1⟩, ⟨.and, "&", 2⟩, ⟨.ident, "q", 3⟩, ⟨.impl, "=>", 4⟩,
        ⟨.ident, "p", 6⟩] := by decide +kernel
  have wide : tokenize "p ∧ q → p" =
      .ok [⟨.ident, "p", 1⟩, ⟨.and, "∧", 3⟩, ⟨.ident, "q", 5⟩, ⟨.impl, "→", 7⟩,
        ⟨.ident, "p", 9⟩] := by decide +kernel
  have cut : tokenize "(p" = .ok [⟨.lparen, "(", 1⟩, ⟨.ident, "p", 2⟩] := by decide +kernel
  have spelled (text : String) := @parseAny_iff_spells (.uniform 0) text
  have read : parseAny "p&q=>p" = .ok (.impl (.conj (.var "p") (.var "q")) (.var "p")) :=
    ((spelled _).1 _).mpr ⟨_, close, .impl (.conjunction
      (.conj (.operand (.name rfl)) rfl (.name rfl))) rfl
        (.disjunction (.conjunction (.operand (.name rfl))))⟩
  refine ⟨read, ?_, .expected .rparen .stop 3, by decide +kernel, ?_⟩
  · exact ((spelled _).2.2.2.2.1 _ _ _ close wide (by decide) _).mp read
  · obtain ⟨⟨t, found, points⟩, -⟩ :=
      ((spelled "(p").2.2.2.1 _ cut).2 (.expected .rparen .stop 3) (by decide +kernel)
    obtain rfl : endOf "(p" = t := by
      simpa [State.reach, State.step, State.overflows, State.advance, State.wait, State.start]
        using found
    exact points

end Deduction.Formula
