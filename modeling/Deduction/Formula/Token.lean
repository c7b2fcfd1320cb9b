import Deduction.Text.Blank
import Deduction.Text.Quoted

/-!
Tokens of formulas in infix form.

Every connective has three spellings. Names start with a letter or an underscore and go on with
letters, digits, underscores and primes.
-/

namespace Deduction.Formula

inductive TokenKind where
  | ident
  | and
  | or
  | impl
  | lparen
  | rparen
  | stop
  deriving DecidableEq, Repr

structure Token where
  kind : TokenKind
  text : String
  /-- Columns count characters from one. -/
  column : Nat
  deriving DecidableEq, Repr

def isNameStart (c : Char) : Bool :=
  ('A' ≤ c && c ≤ 'Z') || ('a' ≤ c && c ≤ 'z') || c = '_'

def isNamePart (c : Char) : Bool := isNameStart c || ('0' ≤ c && c ≤ '9') || c = '\''

def isName : List Char → Bool
  | [] => false
  | c :: rest => isNameStart c && rest.all isNamePart

def isIdentifier (name : String) : Bool := isName name.toList

/-- The connective or parenthesis at the start of a text, with its length. -/
def symbol? : List Char → Option (TokenKind × Nat)
  | '∧' :: _ => some (.and, 1)
  | '&' :: _ => some (.and, 1)
  | '/' :: '\\' :: _ => some (.and, 2)
  | '∨' :: _ => some (.or, 1)
  | '|' :: _ => some (.or, 1)
  | '\\' :: '/' :: _ => some (.or, 2)
  | '→' :: _ => some (.impl, 1)
  | '-' :: '>' :: _ => some (.impl, 2)
  | '=' :: '>' :: _ => some (.impl, 2)
  | '(' :: _ => some (.lparen, 1)
  | ')' :: _ => some (.rparen, 1)
  | _ => none

/-- A character at which no token starts, and its column. -/
structure StrayChar where
  char : Char
  column : Nat
  deriving DecidableEq, Repr

/-- The token at the start of a text, with its length. -/
def lexeme? (cs : List Char) : Option (TokenKind × Nat) :=
  match cs with
  | [] => none
  | c :: rest =>
      if isNameStart c then some (.ident, 1 + (rest.takeWhile isNamePart).length) else symbol? cs

/-- The tokens of a text whose first character stands at the given column. -/
def tokensFrom (column : Nat) (cs : List Char) : Except StrayChar (List Token) :=
  match cs with
  | [] => .ok []
  | c :: rest =>
      if Text.isBlank c then tokensFrom (column + 1) rest
      else
        match lexeme? (c :: rest) with
        | none => .error ⟨c, column⟩
        | some (kind, size) =>
            match tokensFrom (column + size) (rest.drop (size - 1)) with
            | .error stray => .error stray
            | .ok more => .ok (⟨kind, String.ofList ((c :: rest).take size), column⟩ :: more)
termination_by cs.length
decreasing_by
  · simp
  · simp only [List.length_cons, List.length_drop]; omega

def tokenize (text : String) : Except StrayChar (List Token) := tokensFrom 1 text.toList

def endOf (text : String) : Token := ⟨.stop, "", text.length + 1⟩

end Deduction.Formula
