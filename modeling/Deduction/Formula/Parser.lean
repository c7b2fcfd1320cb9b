import Deduction.Formula.Basic
import Deduction.Formula.Token
import Deduction.Nesting

/-!
Reading formulas in infix form.

Implication binds weakest and nests to the right. Disjunction and then conjunction bind tighter and
nest to the left. The parser goes through the tokens once. What waits for the formula that is being
read, an open parenthesis or the left side of an implication, is kept on a stack.
-/

namespace Deduction.Formula

inductive ParseError where
  | strayChar (char : Char) (column : Nat)
  | straySurrogate (half : Surrogate) (column : Nat)
  | expectedOperand (found : TokenKind) (column : Nat)
  | expected (wanted found : TokenKind) (column : Nat)
  /-- A text that nests too deeply before the given column. -/
  | tooDeep (column : Nat)
  deriving DecidableEq, Repr

/-- A chain of disjuncts and, in the last one, a chain of conjuncts, before the next operand. -/
structure Chain where
  disjuncts : Option (Formula String)
  conjuncts : Option (Formula String)
  deriving DecidableEq, Repr

def Chain.empty : Chain := ⟨none, none⟩

/-- What waits for the formula that is being read. -/
inductive Pending where
  | paren (outer : Chain)
  | arrow (lhs : Formula String)
  deriving DecidableEq, Repr

def joinConj : Option (Formula String) → Formula String → Formula String
  | none, f => f
  | some g, f => .conj g f

def joinDisj : Option (Formula String) → Formula String → Formula String
  | none, f => f
  | some g, f => .disj g f

/-- Close the implications that end with `f`, up to the innermost open parenthesis. -/
def closeArrows : List Pending → Formula String → List Pending × Formula String
  | .arrow lhs :: stack, f => closeArrows stack (.impl lhs f)
  | stack, f => (stack, f)

/-- The parser before an operand, or after one with the disjuncts before it and its conjunction. -/
inductive Mode where
  | operand (chain : Chain)
  | operator (disjuncts : Option (Formula String)) (conjunction : Formula String)
  deriving DecidableEq, Repr

structure State where
  stack : List Pending
  mode : Mode
  deriving DecidableEq, Repr

def State.start : State := ⟨[], .operand .empty⟩

/-- The formula that a chain of operands amounts to when it ends, with what waits for it. -/
def State.finish (stack : List Pending) (disjuncts : Option (Formula String))
    (conjunction : Formula String) : List Pending × Formula String :=
  closeArrows stack (joinDisj disjuncts conjunction)

def State.wait (stack : List Pending) (pending : Pending) : State :=
  ⟨pending :: stack, .operand .empty⟩

/-- Go on with a token that stands where more may be open. -/
def State.advance (s : State) (t : Token) : Except ParseError State :=
  match s.mode with
  | .operand chain =>
      match t.kind with
      | .ident =>
          .ok ⟨s.stack, .operator chain.disjuncts (joinConj chain.conjuncts (.var t.text))⟩
      | .lparen => .ok (State.wait s.stack (.paren chain))
      | found => .error (.expectedOperand found t.column)
  | .operator disjuncts conjunction =>
      match t.kind with
      | .and => .ok ⟨s.stack, .operand ⟨disjuncts, some conjunction⟩⟩
      | .or => .ok ⟨s.stack, .operand ⟨some (joinDisj disjuncts conjunction), none⟩⟩
      | .impl => .ok (State.wait s.stack (.arrow (joinDisj disjuncts conjunction)))
      | found =>
          match State.finish s.stack disjuncts conjunction with
          | (.paren outer :: stack, f) =>
              match found with
              | .rparen => .ok ⟨stack, .operator outer.disjuncts (joinConj outer.conjuncts f)⟩
              | _ => .error (.expected .rparen found t.column)
          | _ => .error (.expected .stop found t.column)

/-- The formula at the end of the tokens, which is at the given column. -/
def State.close (s : State) (column : Nat) : Except ParseError (Formula String) :=
  match s.mode with
  | .operand _ => .error (.expectedOperand .stop column)
  | .operator disjuncts conjunction =>
      match State.finish s.stack disjuncts conjunction with
      | ([], f) => .ok f
      | _ => .error (.expected .rparen .stop column)

/-- Whether more waits than the limit allows. This is noticed where the next token is looked at. -/
def State.overflows (limit : Nat) (s : State) : Bool := limit < s.stack.length

def State.step (limit : Nat) (s : State) (t : Token) : Except ParseError State :=
  if s.overflows limit then .error (.tooDeep t.column) else s.advance t

def State.result (limit : Nat) (s : State) (column : Nat) : Except ParseError (Formula String) :=
  if s.overflows limit then .error (.tooDeep column) else s.close column

def State.run (limit column : Nat) (s : State) : List Token → Except ParseError (Formula String)
  | [] => s.result limit column
  | t :: rest =>
      match s.step limit t with
      | .error e => .error e
      | .ok s => s.run limit column rest

/-- Read a formula in which at most `limit` parentheses and implications are open at once. -/
def parseWithin (limit : Nat) (text : String) : Except ParseError (Formula String) :=
  match tokenize text with
  | .error stray => .error (.strayChar stray.char stray.column)
  | .ok tokens => State.start.run limit (endOf text).column tokens

/-- Read a formula of any depth: every open parenthesis and implication takes a character. -/
def parseAny (text : String) : Except ParseError (Formula String) := parseWithin text.length text

def parse [Limits] (text : String) : Except ParseError (Formula String) :=
  parseWithin Limits.parsing text

/-- Read a formula from a text. None has a lone surrogate, so there is nothing to parse after the
first one. -/
def parseText [Limits] : Text → Except ParseError (Formula String)
  | .plain text => parse text
  | .broken before half _ =>
      match tokenize before with
      | .error stray => .error (.strayChar stray.char stray.column)
      | .ok _ => .error (.straySurrogate half (endOf before).column)

/-! ### Messages -/

def TokenKind.name : TokenKind → String
  | .ident => "identifier"
  | .and => "'∧'"
  | .or => "'∨'"
  | .impl => "'→'"
  | .lparen => "'('"
  | .rparen => "')'"
  | .stop => "end of input"

def ParseError.column : ParseError → Nat
  | .strayChar _ column => column
  | .straySurrogate _ column => column
  | .expectedOperand _ column => column
  | .expected _ _ column => column
  | .tooDeep column => column

def ParseError.reason : ParseError → String
  | .strayChar char _ => "Unexpected character " ++ Text.quoted (String.singleton char)
  | .straySurrogate half _ => "Unexpected character " ++ Text.quoted (.broken "" half "")
  | .expectedOperand found _ => s!"Expected a variable or '(', got {found.name}"
  | .expected wanted found _ => s!"Expected {wanted.name}, got {found.name}"
  | .tooDeep _ => "Formula is nested too deeply"

def ParseError.message (e : ParseError) : String := s!"column {e.column}: {e.reason}"

end Deduction.Formula
