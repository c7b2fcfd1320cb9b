import Deduction.Formula.Parser
import Deduction.Proofs.Lexing

/-!
The grammar of formulas in infix form, and the parser as a machine that recognizes it.

Completeness is by induction on the grammar: from any stack, tokens that spell an operand, a
conjunction, a disjunction or a formula lead to the state that has read it. Soundness is by an
invariant: what waits on the stack and what is being read spell the tokens so far.
-/

namespace Deduction.Formula

inductive Level where
  | formula
  | disjunction
  | conjunction
  | operand
  deriving DecidableEq, Repr

/-- Tokens that spell a formula at a level. Implications nest to the right, the other connectives to
the left. -/
inductive Spells : Level → List Token → Formula String → Prop
  | name {t} : t.kind = .ident → Spells .operand [t] (.var t.text)
  | paren {l ts r f} : l.kind = .lparen → Spells .formula ts f → r.kind = .rparen →
      Spells .operand (l :: (ts ++ [r])) f
  | operand {ts f} : Spells .operand ts f → Spells .conjunction ts f
  | conj {ts t us f g} : Spells .conjunction ts f → t.kind = .and → Spells .operand us g →
      Spells .conjunction (ts ++ t :: us) (.conj f g)
  | conjunction {ts f} : Spells .conjunction ts f → Spells .disjunction ts f
  | disj {ts t us f g} : Spells .disjunction ts f → t.kind = .or → Spells .conjunction us g →
      Spells .disjunction (ts ++ t :: us) (.disj f g)
  | disjunction {ts f} : Spells .disjunction ts f → Spells .formula ts f
  | impl {ts t us f g} : Spells .disjunction ts f → t.kind = .impl → Spells .formula us g →
      Spells .formula (ts ++ t :: us) (.impl f g)

/-! ### Names among tokens -/

/-- The names among tokens, from left to right and as often as they occur. -/
def identifiers (ts : List Token) : List String :=
  (ts.filter fun t => t.kind = .ident).map Token.text

theorem mem_identifiers {ts : List Token} {name : String} :
    name ∈ identifiers ts ↔ ∃ t ∈ ts, t.kind = .ident ∧ t.text = name := by
  simp [identifiers, and_assoc]

theorem identifiers_append (ts us : List Token) :
    identifiers (ts ++ us) = identifiers ts ++ identifiers us := by
  simp [identifiers]

theorem identifiers_cons_of_ne {t : Token} (other : t.kind ≠ .ident) (ts : List Token) :
    identifiers (t :: ts) = identifiers ts := by
  simp [identifiers, other]

/-- The variables of a formula are the names among its tokens. None is lost, added or moved. -/
theorem Spells.occurrences_eq {level : Level} {ts : List Token} {f : Formula String}
    (spells : Spells level ts f) : f.occurrences = identifiers ts := by
  induction spells with
  | name ident => simp [occurrences, identifiers, ident]
  | @paren l ts r f opening _ closing ih =>
      have none : identifiers [r] = [] := identifiers_cons_of_ne (by simp [closing]) []
      rw [identifiers_cons_of_ne (by simp [opening]), identifiers_append, none, List.append_nil, ih]
  | operand _ ih | conjunction _ ih | disjunction _ ih => exact ih
  | conj _ kind _ ihl ihr | disj _ kind _ ihl ihr | impl _ kind _ ihl ihr =>
      rw [identifiers_append, identifiers_cons_of_ne (by simp [kind]), ← ihl, ← ihr, occurrences]

/-! ### Feeding tokens -/

namespace State

/-- The state after some tokens. -/
def feed (limit : Nat) (s : State) : List Token → Except ParseError State
  | [] => .ok s
  | t :: rest =>
      match s.step limit t with
      | .error e => .error e
      | .ok s => s.feed limit rest

theorem feed_append {limit : Nat} {s middle : State} {ts us : List Token}
    (h : s.feed limit ts = .ok middle) : s.feed limit (ts ++ us) = middle.feed limit us := by
  induction ts generalizing s with
  | nil =>
      obtain rfl : s = middle := by simpa [feed] using h
      rfl
  | cons t rest ih =>
      cases stepped : s.step limit t with
      | error e => simp [feed, stepped] at h
      | ok s' =>
          simp only [feed, stepped, List.cons_append] at h ⊢
          exact ih h

theorem feed_cons {limit : Nat} {s s' : State} {t : Token} {rest : List Token}
    (stepped : s.step limit t = .ok s') : s.feed limit (t :: rest) = s'.feed limit rest := by
  simp [feed, stepped]

theorem run_eq_ok_iff {limit column : Nat} {s : State} {ts : List Token} {f : Formula String} :
    s.run limit column ts = .ok f ↔
      ∃ final, s.feed limit ts = .ok final ∧ final.result limit column = .ok f := by
  induction ts generalizing s with
  | nil => simp [run, feed]
  | cons t rest ih =>
      cases stepped : s.step limit t with
      | error e => simp [run, feed, stepped]
      | ok s' => simp [run, feed, stepped, ih]

theorem step_of_fits {limit : Nat} {s : State} (fits : s.stack.length ≤ limit) (t : Token) :
    s.step limit t = s.advance t := by
  simp [step, overflows, Nat.not_lt.mpr fits]

theorem result_of_fits {limit : Nat} {s : State} (fits : s.stack.length ≤ limit) (column : Nat) :
    s.result limit column = s.close column := by
  simp [result, overflows, Nat.not_lt.mpr fits]

theorem step_of_deep {limit : Nat} {s : State} (deep : limit < s.stack.length) (t : Token) :
    s.step limit t = .error (.tooDeep t.column) := by
  simp [step, overflows, deep]

theorem result_of_deep {limit : Nat} {s : State} (deep : limit < s.stack.length) (column : Nat) :
    s.result limit column = .error (.tooDeep column) := by
  simp [result, overflows, deep]

theorem step_eq_ok_iff {limit : Nat} {s next : State} {t : Token} :
    s.step limit t = .ok next ↔ s.stack.length ≤ limit ∧ s.advance t = .ok next := by
  by_cases fits : s.stack.length ≤ limit
  · simp [step_of_fits fits, fits]
  · simp [step_of_deep (Nat.not_le.mp fits), fits]

theorem result_eq_ok_iff {limit column : Nat} {s : State} {f : Formula String} :
    s.result limit column = .ok f ↔ s.stack.length ≤ limit ∧ s.close column = .ok f := by
  by_cases fits : s.stack.length ≤ limit
  · simp [result_of_fits fits, fits]
  · simp [result_of_deep (Nat.not_le.mp fits), fits]

end State

/-! ### Completeness -/

/-- Tokens that spell a formula at a level, with at most `room` parentheses and implications open at
once. The left side of an implication ends before the implication is open. -/
inductive SpellsWithin : Nat → Level → List Token → Formula String → Prop
  | name {room t} : t.kind = .ident → SpellsWithin room .operand [t] (.var t.text)
  | paren {room l ts r f} : l.kind = .lparen → SpellsWithin room .formula ts f →
      r.kind = .rparen → SpellsWithin (room + 1) .operand (l :: (ts ++ [r])) f
  | operand {room ts f} : SpellsWithin room .operand ts f → SpellsWithin room .conjunction ts f
  | conj {room ts t us f g} : SpellsWithin room .conjunction ts f → t.kind = .and →
      SpellsWithin room .operand us g → SpellsWithin room .conjunction (ts ++ t :: us) (.conj f g)
  | conjunction {room ts f} : SpellsWithin room .conjunction ts f →
      SpellsWithin room .disjunction ts f
  | disj {room ts t us f g} : SpellsWithin room .disjunction ts f → t.kind = .or →
      SpellsWithin room .conjunction us g →
      SpellsWithin room .disjunction (ts ++ t :: us) (.disj f g)
  | disjunction {room ts f} : SpellsWithin room .disjunction ts f → SpellsWithin room .formula ts f
  | impl {room ts t us f g} : SpellsWithin (room + 1) .disjunction ts f → t.kind = .impl →
      SpellsWithin room .formula us g →
      SpellsWithin (room + 1) .formula (ts ++ t :: us) (.impl f g)

theorem SpellsWithin.mono {room wider : Nat} {level : Level} {ts : List Token}
    {f : Formula String} (within : SpellsWithin room level ts f) (le : room ≤ wider) :
    SpellsWithin wider level ts f := by
  induction within generalizing wider with
  | name ident => exact .name ident
  | paren opening _ closing ih =>
      obtain ⟨wider, rfl⟩ := Nat.exists_eq_add_one_of_ne_zero (Nat.ne_zero_of_lt le)
      exact .paren opening (ih (Nat.le_of_succ_le_succ le)) closing
  | operand _ ih => exact .operand (ih le)
  | conj _ and _ ihl ihr => exact .conj (ihl le) and (ihr le)
  | conjunction _ ih => exact .conjunction (ih le)
  | disj _ or _ ihl ihr => exact .disj (ihl le) or (ihr le)
  | disjunction _ ih => exact .disjunction (ih le)
  | impl _ arrow _ ihl ihr =>
      obtain ⟨wider, rfl⟩ := Nat.exists_eq_add_one_of_ne_zero (Nat.ne_zero_of_lt le)
      exact .impl (ihl le) arrow (ihr (Nat.le_of_succ_le_succ le))

/-- There is room enough for the tokens, of which each opens at most one parenthesis or
implication. -/
theorem Spells.within_length {level : Level} {ts : List Token} {f : Formula String}
    (spells : Spells level ts f) : SpellsWithin ts.length level ts f := by
  have size (ts us : List Token) (t : Token) :
      (ts ++ t :: us).length = ts.length + us.length + 1 := by
    simp only [List.length_append, List.length_cons]
    omega
  induction spells with
  | name ident => exact .name ident
  | @paren l ts r f opening _ closing ih =>
      have inner : SpellsWithin (ts ++ [r]).length .formula ts f := ih.mono (by simp)
      exact .paren opening inner closing
  | operand _ ih => exact .operand ih
  | conj _ and _ ihl ihr =>
      rw [size]
      exact .conj (ihl.mono (by omega)) and (ihr.mono (by omega))
  | conjunction _ ih => exact .conjunction ih
  | disj _ or _ ihl ihr =>
      rw [size]
      exact .disj (ihl.mono (by omega)) or (ihr.mono (by omega))
  | disjunction _ ih => exact .disjunction ih
  | impl _ arrow _ ihl ihr =>
      rw [size]
      exact .impl (ihl.mono (by omega)) arrow (ihr.mono (by omega))

/-- What the machine does with tokens that spell a formula at a level, if there is room on the
stack. -/
def Level.Reads (limit room : Nat) (ts : List Token) (f : Formula String) : Level → Prop
  | .operand => ∀ stack chain, stack.length + room ≤ limit →
      State.feed limit ⟨stack, .operand chain⟩ ts =
        .ok ⟨stack, .operator chain.disjuncts (joinConj chain.conjuncts f)⟩
  | .conjunction => ∀ stack disjuncts, stack.length + room ≤ limit →
      State.feed limit ⟨stack, .operand ⟨disjuncts, none⟩⟩ ts = .ok ⟨stack, .operator disjuncts f⟩
  | .disjunction => ∀ stack, stack.length + room ≤ limit →
      ∃ disjuncts conjunction, joinDisj disjuncts conjunction = f ∧
        State.feed limit ⟨stack, .operand .empty⟩ ts =
          .ok ⟨stack, .operator disjuncts conjunction⟩
  | .formula => ∀ stack, stack.length + room ≤ limit →
      ∃ waiting disjuncts conjunction, waiting.length ≤ limit ∧
        State.finish waiting disjuncts conjunction = closeArrows stack f ∧
        State.feed limit ⟨stack, .operand .empty⟩ ts =
          .ok ⟨waiting, .operator disjuncts conjunction⟩

theorem SpellsWithin.reads {limit room : Nat} {level : Level} {ts : List Token}
    {f : Formula String} (within : SpellsWithin room level ts f) :
    level.Reads limit room ts f := by
  induction within with
  | @name room t ident =>
      intro stack chain fits
      have read : State.step limit ⟨stack, .operand chain⟩ t = _ :=
        State.step_of_fits (Nat.le_of_add_right_le fits) t
      simp [State.feed, read, State.advance, ident]
  | @paren room l ts r f opening _ closing ih =>
      intro stack chain fits
      have opened : State.step limit ⟨stack, .operand chain⟩ l =
          .ok ⟨.paren chain :: stack, .operand .empty⟩ := by
        rw [State.step_of_fits (Nat.le_of_add_right_le fits)]
        simp [State.advance, opening, State.wait]
      obtain ⟨waiting, disjuncts, conjunction, bounded, finished, fed⟩ :=
        ih (.paren chain :: stack) (by simp only [List.length_cons]; omega)
      rw [State.feed_cons opened, State.feed_append fed]
      have closed : State.step limit ⟨waiting, .operator disjuncts conjunction⟩ r = _ :=
        State.step_of_fits bounded r
      simp [State.feed, closed, State.advance, closing, finished, closeArrows]
  | operand _ ih =>
      intro stack disjuncts fits
      exact ih stack ⟨disjuncts, none⟩ fits
  | @conj room ts t us f g _ and _ ihl ihr =>
      intro stack disjuncts fits
      have joined : State.step limit ⟨stack, .operator disjuncts f⟩ t =
          .ok ⟨stack, .operand ⟨disjuncts, some f⟩⟩ := by
        rw [State.step_of_fits (Nat.le_of_add_right_le fits)]
        simp [State.advance, and]
      rw [State.feed_append (ihl stack disjuncts fits), State.feed_cons joined]
      exact ihr stack ⟨disjuncts, some f⟩ fits
  | @conjunction room ts f _ ih =>
      intro stack fits
      exact ⟨none, f, rfl, ih stack none fits⟩
  | @disj room ts t us f g _ or _ ihl ihr =>
      intro stack fits
      obtain ⟨disjuncts, conjunction, rfl, fed⟩ := ihl stack fits
      have joined : State.step limit ⟨stack, .operator disjuncts conjunction⟩ t =
          .ok ⟨stack, .operand ⟨some (joinDisj disjuncts conjunction), none⟩⟩ := by
        rw [State.step_of_fits (Nat.le_of_add_right_le fits)]
        simp [State.advance, or]
      refine ⟨some (joinDisj disjuncts conjunction), g, rfl, ?_⟩
      rw [State.feed_append fed, State.feed_cons joined]
      exact ihr stack _ fits
  | disjunction _ ih =>
      intro stack fits
      obtain ⟨disjuncts, conjunction, rfl, fed⟩ := ih stack fits
      exact ⟨stack, disjuncts, conjunction, Nat.le_of_add_right_le fits, rfl, fed⟩
  | @impl room ts t us f g _ arrow _ ihl ihr =>
      intro stack fits
      obtain ⟨disjuncts, conjunction, rfl, fed⟩ := ihl stack fits
      have waited : State.step limit ⟨stack, .operator disjuncts conjunction⟩ t =
          .ok ⟨.arrow (joinDisj disjuncts conjunction) :: stack, .operand .empty⟩ := by
        rw [State.step_of_fits (Nat.le_of_add_right_le fits)]
        simp [State.advance, arrow, State.wait]
      -- the implication is closed together with those that end with it
      obtain ⟨waiting, disjuncts', conjunction', bounded, finished, fedRight⟩ :=
        ihr (.arrow (joinDisj disjuncts conjunction) :: stack)
          (by simp only [List.length_cons]; omega)
      refine ⟨waiting, disjuncts', conjunction', bounded, finished, ?_⟩
      rw [State.feed_append fed, State.feed_cons waited, fedRight]

theorem SpellsWithin.run {limit room : Nat} {ts : List Token} {f : Formula String}
    (within : SpellsWithin room .formula ts f) (le : room ≤ limit) (column : Nat) :
    State.start.run limit column ts = .ok f := by
  obtain ⟨waiting, disjuncts, conjunction, bounded, finished, fed⟩ :=
    within.reads [] (by simpa using le)
  refine State.run_eq_ok_iff.mpr ⟨_, fed, State.result_eq_ok_iff.mpr ⟨bounded, ?_⟩⟩
  simp [State.close, finished, closeArrows]

theorem Spells.run {limit : Nat} {ts : List Token} {f : Formula String}
    (spells : Spells .formula ts f) (room : ts.length ≤ limit) (column : Nat) :
    State.start.run limit column ts = .ok f :=
  spells.within_length.run room column

/-! ### Soundness -/

/-- The moves of the machine. -/
inductive State.Moves (t : Token) : State → State → Prop
  | name {stack chain} : t.kind = .ident →
      Moves t ⟨stack, .operand chain⟩
        ⟨stack, .operator chain.disjuncts (joinConj chain.conjuncts (.var t.text))⟩
  | opening {stack chain} : t.kind = .lparen →
      Moves t ⟨stack, .operand chain⟩ ⟨.paren chain :: stack, .operand .empty⟩
  | and {stack disjuncts conjunction} : t.kind = .and →
      Moves t ⟨stack, .operator disjuncts conjunction⟩
        ⟨stack, .operand ⟨disjuncts, some conjunction⟩⟩
  | or {stack disjuncts conjunction} : t.kind = .or →
      Moves t ⟨stack, .operator disjuncts conjunction⟩
        ⟨stack, .operand ⟨some (joinDisj disjuncts conjunction), none⟩⟩
  | arrow {stack disjuncts conjunction} : t.kind = .impl →
      Moves t ⟨stack, .operator disjuncts conjunction⟩
        ⟨.arrow (joinDisj disjuncts conjunction) :: stack, .operand .empty⟩
  | closing {stack disjuncts conjunction outer rest f} : t.kind = .rparen →
      State.finish stack disjuncts conjunction = (.paren outer :: rest, f) →
      Moves t ⟨stack, .operator disjuncts conjunction⟩
        ⟨rest, .operator outer.disjuncts (joinConj outer.conjuncts f)⟩

theorem State.moves_of_advance {s next : State} {t : Token}
    (stepped : s.advance t = .ok next) : State.Moves t s next := by
  obtain ⟨stack, mode⟩ := s
  cases mode with
  | operand chain =>
      cases kind : t.kind <;> simp only [State.advance, kind, reduceCtorEq] at stepped
      case ident =>
        obtain rfl := Except.ok.inj stepped
        exact .name kind
      case lparen =>
        obtain rfl := Except.ok.inj stepped
        exact .opening kind
  | operator disjuncts conjunction =>
      cases kind : t.kind <;> simp only [State.advance, kind] at stepped
      case and =>
        obtain rfl := Except.ok.inj stepped
        exact .and kind
      case or =>
        obtain rfl := Except.ok.inj stepped
        exact .or kind
      case impl =>
        obtain rfl := Except.ok.inj stepped
        exact .arrow kind
      case rparen =>
        split at stepped
        · rename_i outer rest f finished
          obtain rfl := Except.ok.inj stepped
          exact .closing kind finished
        · simp at stepped
      all_goals
        split at stepped <;> simp at stepped

theorem State.moves_of_step {limit : Nat} {s next : State} {t : Token}
    (stepped : s.step limit t = .ok next) : State.Moves t s next :=
  State.moves_of_advance (State.step_eq_ok_iff.mp stepped).2

/-- The tokens of what stands before an operand: nothing, or a formula with its connective. -/
def Leads (level : Level) (kind : TokenKind) : Option (Formula String) → List Token → Prop
  | none, ts => ts = []
  | some f, ts => ∃ us t, ts = us ++ [t] ∧ Spells level us f ∧ t.kind = kind

theorem Leads.joinConj {conjuncts : Option (Formula String)} {ts us : List Token}
    {f : Formula String} (leads : Leads .conjunction .and conjuncts ts)
    (spells : Spells .operand us f) :
    Spells .conjunction (ts ++ us) (joinConj conjuncts f) := by
  cases conjuncts with
  | none =>
      obtain rfl : ts = [] := leads
      exact .operand spells
  | some g =>
      obtain ⟨vs, t, rfl, before, and⟩ := leads
      simpa [Formula.joinConj] using Spells.conj before and spells

theorem Leads.joinDisj {disjuncts : Option (Formula String)} {ts us : List Token}
    {f : Formula String} (leads : Leads .disjunction .or disjuncts ts)
    (spells : Spells .conjunction us f) :
    Spells .disjunction (ts ++ us) (joinDisj disjuncts f) := by
  cases disjuncts with
  | none =>
      obtain rfl : ts = [] := leads
      exact .conjunction spells
  | some g =>
      obtain ⟨vs, t, rfl, before, or⟩ := leads
      simpa [Formula.joinDisj] using Spells.disj before or spells

/-- The tokens of what waits on the stack. -/
inductive Waits : List Pending → List Token → Prop
  | nil : Waits [] []
  | paren {stack chain ts us vs t} : Waits stack ts → Leads .disjunction .or chain.disjuncts us →
      Leads .conjunction .and chain.conjuncts vs → t.kind = .lparen →
      Waits (.paren chain :: stack) (ts ++ us ++ vs ++ [t])
  | arrow {stack lhs ts us t} : Waits stack ts → Spells .disjunction us lhs → t.kind = .impl →
      Waits (.arrow lhs :: stack) (ts ++ us ++ [t])

theorem Waits.closeArrows {stack : List Pending} {ts us : List Token} {f : Formula String}
    (waits : Waits stack ts) (spells : Spells .formula us f) :
    ∃ ts' us', ts ++ us = ts' ++ us' ∧ Waits (closeArrows stack f).1 ts' ∧
      Spells .formula us' (closeArrows stack f).2 := by
  induction waits generalizing us f with
  | nil => exact ⟨[], us, rfl, .nil, spells⟩
  | @paren stack chain ts vs ws t waits disjuncts conjuncts opening _ =>
      exact ⟨_, us, rfl, .paren waits disjuncts conjuncts opening, spells⟩
  | @arrow stack lhs ts vs t waits left arrow ih =>
      obtain ⟨ts', us', split, closed, spelled⟩ := ih (.impl left arrow spells)
      exact ⟨ts', us', by simpa using split, closed, spelled⟩

/-- The tokens that have led to a state. -/
inductive State.Spelled : State → List Token → Prop
  | operand {stack ts us vs} (chain : Chain) : Waits stack ts →
      Leads .disjunction .or chain.disjuncts us → Leads .conjunction .and chain.conjuncts vs →
      Spelled ⟨stack, .operand chain⟩ (ts ++ us ++ vs)
  | operator {stack disjuncts conjunction ts us vs} : Waits stack ts →
      Leads .disjunction .or disjuncts us → Spells .conjunction vs conjunction →
      Spelled ⟨stack, .operator disjuncts conjunction⟩ (ts ++ us ++ vs)

theorem State.spelled_start : State.start.Spelled [] :=
  .operand .empty .nil rfl rfl

theorem State.Spelled.finish {stack rest : List Pending} {disjuncts : Option (Formula String)}
    {conjunction f : Formula String} {ts : List Token}
    (spelled : State.Spelled ⟨stack, .operator disjuncts conjunction⟩ ts)
    (finished : State.finish stack disjuncts conjunction = (rest, f)) :
    ∃ us vs, ts = us ++ vs ∧ Waits rest us ∧ Spells .formula vs f := by
  cases spelled with
  | operator waits before reading =>
      obtain ⟨us, vs, split, closed, spells⟩ :=
        waits.closeArrows (.disjunction (before.joinDisj reading))
      rw [show Formula.closeArrows _ _ = (rest, f) from finished] at closed spells
      exact ⟨us, vs, by simpa using split, closed, spells⟩

theorem State.Spelled.move {s next : State} {t : Token} {ts : List Token}
    (spelled : s.Spelled ts) (moves : State.Moves t s next) : next.Spelled (ts ++ [t]) := by
  cases moves with
  | name ident =>
      obtain ⟨_, waits, before, reading⟩ := spelled
      simpa using State.Spelled.operator waits before (reading.joinConj (.name ident))
  | opening lparen =>
      obtain ⟨_, waits, before, reading⟩ := spelled
      simpa using State.Spelled.operand .empty (.paren waits before reading lparen) rfl rfl
  | and and =>
      cases spelled with
      | operator waits before reading =>
          simpa using State.Spelled.operand ⟨_, some _⟩ waits before ⟨_, t, rfl, reading, and⟩
  | or or =>
      cases spelled with
      | operator waits before reading =>
          simpa using State.Spelled.operand ⟨some _, none⟩ waits
            ⟨_, t, rfl, before.joinDisj reading, or⟩ rfl
  | arrow impl =>
      cases spelled with
      | operator waits before reading =>
          simpa using State.Spelled.operand .empty
            (.arrow waits (before.joinDisj reading) impl) rfl rfl
  | closing rparen finished =>
      obtain ⟨us, vs, rfl, waits, inner⟩ := spelled.finish finished
      cases waits with
      | paren waits before reading lparen =>
          have operand := Spells.paren lparen inner rparen
          simpa using State.Spelled.operator waits before (reading.joinConj operand)

theorem State.Spelled.feed {limit : Nat} {s last : State} {ts us : List Token}
    (spelled : s.Spelled ts) (fed : s.feed limit us = .ok last) : last.Spelled (ts ++ us) := by
  induction us generalizing s ts with
  | nil =>
      obtain rfl : s = last := by simpa [State.feed] using fed
      simpa using spelled
  | cons t rest ih =>
      cases stepped : s.step limit t with
      | error e => simp [State.feed, stepped] at fed
      | ok next =>
          have moved := spelled.move (State.moves_of_step stepped)
          have restFed : next.feed limit rest = .ok last := by simpa [State.feed, stepped] using fed
          simpa using ih moved restFed

theorem State.Spelled.close {s : State} {column : Nat} {ts : List Token} {f : Formula String}
    (spelled : s.Spelled ts) (read : s.close column = .ok f) : Spells .formula ts f := by
  obtain ⟨stack, mode⟩ := s
  cases mode with
  | operand chain => simp [State.close] at read
  | operator disjuncts conjunction =>
      simp only [State.close] at read
      split at read
      · rename_i g finished
        obtain rfl := Except.ok.inj read
        obtain ⟨us, vs, rfl, waits, spells⟩ := spelled.finish finished
        cases waits with
        | nil => simpa using spells
      · simp at read

theorem spells_of_run {limit column : Nat} {ts : List Token} {f : Formula String}
    (read : State.start.run limit column ts = .ok f) : Spells .formula ts f := by
  obtain ⟨last, fed, finished⟩ := State.run_eq_ok_iff.mp read
  have spelled := State.spelled_start.feed fed
  exact spelled.close (State.result_eq_ok_iff.mp finished).2

/-! ### The nesting limit -/

theorem length_closeArrows_le (stack : List Pending) (f : Formula String) :
    (closeArrows stack f).1.length ≤ stack.length := by
  fun_induction closeArrows stack f with
  | case1 f lhs stack ih => exact Nat.le_succ_of_le ih
  | case2 => exact Nat.le_refl _

/-- At most one more formula waits after a move. -/
theorem State.Moves.length_stack_le {t : Token} {s next : State}
    (moves : State.Moves t s next) : next.stack.length ≤ s.stack.length + 1 := by
  cases moves with
  | name _ | opening _ | and _ | or _ | arrow _ => simp
  | @closing stack disjuncts conjunction outer rest f _ finished =>
      have shorter := length_closeArrows_le stack (joinDisj disjuncts conjunction)
      rw [show closeArrows _ _ = (_ :: rest, f) from finished, List.length_cons] at shorter
      exact Nat.le_trans (Nat.le_of_succ_le shorter) (Nat.le_succ _)

theorem State.advance_ne_tooDeep (s : State) (t : Token) (column : Nat) :
    s.advance t ≠ .error (.tooDeep column) := by
  unfold State.advance
  repeat' split
  all_goals simp

theorem State.close_ne_tooDeep (s : State) (last column : Nat) :
    s.close last ≠ .error (.tooDeep column) := by
  unfold State.close
  repeat' split
  all_goals simp

/-- Every token opens at most one parenthesis or implication. -/
theorem State.run_ne_tooDeep {limit last : Nat} {s : State} {ts : List Token}
    (room : s.stack.length + ts.length ≤ limit) (column : Nat) :
    s.run limit last ts ≠ .error (.tooDeep column) := by
  have fits : s.stack.length ≤ limit := Nat.le_of_add_right_le room
  induction ts generalizing s with
  | nil =>
      rw [State.run, State.result_of_fits fits]
      exact s.close_ne_tooDeep last column
  | cons t rest ih =>
      rw [List.length_cons] at room
      rw [State.run, State.step_of_fits fits]
      cases stepped : s.advance t with
      | error e => simpa [stepped] using s.advance_ne_tooDeep t column
      | ok next =>
          have grown := (State.moves_of_advance stepped).length_stack_le
          exact ih (s := next) (by omega) (by omega)

theorem State.step_eq_or_tooDeep {limit wider : Nat} (le : limit ≤ wider) (s : State) (t : Token) :
    s.step limit t = s.step wider t ∨ s.step limit t = .error (.tooDeep t.column) := by
  by_cases fits : s.stack.length ≤ limit
  · exact .inl ((step_of_fits fits t).trans (step_of_fits (Nat.le_trans fits le) t).symm)
  · exact .inr (step_of_deep (Nat.not_le.mp fits) t)

theorem State.run_eq_or_tooDeep {limit wider : Nat} (le : limit ≤ wider) (last : Nat) (s : State)
    (ts : List Token) :
    s.run limit last ts = s.run wider last ts ∨
      ∃ column, s.run limit last ts = .error (.tooDeep column) := by
  induction ts generalizing s with
  | nil =>
      by_cases fits : s.stack.length ≤ limit
      · exact .inl ((result_of_fits fits _).trans (result_of_fits (Nat.le_trans fits le) _).symm)
      · exact .inr ⟨last, result_of_deep (Nat.not_le.mp fits) last⟩
  | cons t rest ih =>
      rcases State.step_eq_or_tooDeep le s t with same | deep
      · simp only [State.run, same]
        cases s.step wider t with
        | error e => exact .inl rfl
        | ok next => exact ih next
      · exact .inr ⟨t.column, by simp [State.run, deep]⟩

/-! ### Texts -/

theorem parseAny_eq_ok_iff {text : String} {f : Formula String} :
    parseAny text = .ok f ↔ ∃ ts, tokenize text = .ok ts ∧ Spells .formula ts f := by
  unfold parseAny parseWithin
  constructor
  · intro read
    cases lexed : tokenize text with
    | error stray => simp [lexed] at read
    | ok ts => exact ⟨ts, rfl, spells_of_run (by simpa [lexed] using read)⟩
  · rintro ⟨ts, lexed, spells⟩
    simpa [lexed] using spells.run (length_le_of_tokenize lexed) _

theorem parseAny_ne_tooDeep (text : String) (column : Nat) :
    parseAny text ≠ .error (.tooDeep column) := by
  unfold parseAny parseWithin
  cases lexed : tokenize text with
  | error stray => simp
  | ok ts =>
      exact State.run_ne_tooDeep (by simpa [State.start] using length_le_of_tokenize lexed) column

/-- A limit changes an answer only into the complaint that the formula is nested too deeply, and no
answer for a text that is not longer than the limit. -/
theorem parseWithin_eq_or_tooDeep (limit : Nat) (text : String) :
    parseWithin limit text = parseAny text ∨
      limit < text.length ∧ ∃ column, parseWithin limit text = .error (.tooDeep column) := by
  have narrower {m n : Nat} (le : m ≤ n) :
      parseWithin m text = parseWithin n text ∨
        ∃ column, parseWithin m text = .error (.tooDeep column) := by
    unfold parseWithin
    cases tokenize text with
    | error stray => exact .inl rfl
    | ok ts => exact State.run_eq_or_tooDeep le _ _ ts
  rcases Nat.lt_or_ge limit text.length with lt | ge
  · rcases narrower (Nat.le_of_lt lt) with same | deep
    · exact .inl same
    · exact .inr ⟨lt, deep⟩
  · rcases narrower ge with same | ⟨column, deep⟩
    · exact .inl same.symm
    · exact absurd deep (parseAny_ne_tooDeep text column)

theorem parseAny_of_parseWithin {limit : Nat} {text : String} {f : Formula String}
    (read : parseWithin limit text = .ok f) : parseAny text = .ok f := by
  rcases parseWithin_eq_or_tooDeep limit text with same | ⟨-, column, deep⟩
  · exact same.symm.trans read
  · exact absurd (deep.symm.trans read) (by simp)

theorem parseAny_of_parse [Limits] {text : String} {f : Formula String}
    (read : parse text = .ok f) : parseAny text = .ok f :=
  parseAny_of_parseWithin read

end Deduction.Formula
