import Deduction.Formula.Basic

/-!
Formulas in infix form, with only the parentheses that reading them back needs.
-/

namespace Deduction

/-- The spellings that a printed line uses. -/
structure Symbols where
  conj : String
  disj : String
  impl : String
  turnstile : String
  deriving DecidableEq, Repr

def Symbols.unicode : Symbols := ⟨"∧", "∨", "→", "⊢"⟩

def Symbols.ascii : Symbols := ⟨"&", "|", "->", "|-"⟩

def Symbols.select (ascii : Bool) : Symbols := if ascii then .ascii else .unicode

/-- What formulas can be printed in: strings, or texts if a name is one. -/
class Wording (Word : Type) extends Append Word where
  ofString : String → Word
  toText : Word → Text

instance : Wording String := ⟨fun text => text, .plain⟩

@[simp]
theorem Wording.ofString_eq (text : String) : (ofString text : String) = text := rfl

instance : Wording Text := ⟨.plain, fun text => text⟩

namespace Formula

variable {Word : Type} [Wording Word]

def parenthesize (needed : Bool) (text : Word) : Word :=
  if needed then Wording.ofString "(" ++ text ++ Wording.ofString ")" else text

/-- Print a connective between what stands on both sides of it. -/
def between (lhs : Word) (symbol : String) (rhs : Word) : Word :=
  lhs ++ Wording.ofString " " ++ Wording.ofString symbol ++ Wording.ofString " " ++ rhs

/-- Print a formula where at least the given strength is wanted: one for implications, two for
disjunctions, three for conjunctions and four for variables. -/
def renderAt (symbols : Symbols) (strength : Nat) : Formula Word → Word
  | .var name => name
  | .impl lhs rhs =>
      parenthesize (1 < strength)
        (between (lhs.renderAt symbols 2) symbols.impl (rhs.renderAt symbols 1))
  | .disj lhs rhs =>
      parenthesize (2 < strength)
        (between (lhs.renderAt symbols 2) symbols.disj (rhs.renderAt symbols 3))
  | .conj lhs rhs =>
      parenthesize (3 < strength)
        (between (lhs.renderAt symbols 3) symbols.conj (rhs.renderAt symbols 4))

def render (symbols : Symbols) (f : Formula Word) : Word := f.renderAt symbols 0

end Formula

end Deduction
