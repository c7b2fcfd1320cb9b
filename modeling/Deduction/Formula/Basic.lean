import Deduction.Text.Blank
import Deduction.Text.Quoted

/-!
Formulas of propositional logic over a type of atoms.

Two formulas are the same exactly when they are built in the same way; there is no normalization of
associativity or commutativity.
-/

namespace Deduction

inductive Formula (Atom : Type) where
  | var (name : Atom)
  | conj (lhs rhs : Formula Atom)
  | disj (lhs rhs : Formula Atom)
  | impl (lhs rhs : Formula Atom)
  deriving Repr, DecidableEq

instance {Atom : Type} [Inhabited Atom] : Inhabited (Formula Atom) := ⟨.var default⟩

namespace Formula

variable {Atom Other : Type}

/-- The connectives that lie on the longest path from the root to a variable. -/
def height : Formula Atom → Nat
  | .var _ => 0
  | .conj lhs rhs => max lhs.height rhs.height + 1
  | .disj lhs rhs => max lhs.height rhs.height + 1
  | .impl lhs rhs => max lhs.height rhs.height + 1

/-- Whether a formula is nested too deeply for a limit. -/
def exceeds (f : Formula Atom) (limit : Nat) : Bool := limit < f.height

/-- The variables from left to right, as often as they occur. -/
def occurrences : Formula Atom → List Atom
  | .var name => [name]
  | .conj lhs rhs => lhs.occurrences ++ rhs.occurrences
  | .disj lhs rhs => lhs.occurrences ++ rhs.occurrences
  | .impl lhs rhs => lhs.occurrences ++ rhs.occurrences

/-- The names of the variables, each of them once and in increasing order. -/
def atoms (f : Formula String) : List String :=
  (f.occurrences.eraseDups).mergeSort fun a b => !decide (b < a)

/-- Change the variables from left to right, numbered from `n` on. The second part is the number
after the last. -/
def mapIdxFrom (change : Nat → Atom → Other) : Nat → Formula Atom → Formula Other × Nat
  | n, .var name => (.var (change n name), n + 1)
  | n, .conj lhs rhs =>
      let (lhs, n) := mapIdxFrom change n lhs
      let (rhs, n) := mapIdxFrom change n rhs
      (.conj lhs rhs, n)
  | n, .disj lhs rhs =>
      let (lhs, n) := mapIdxFrom change n lhs
      let (rhs, n) := mapIdxFrom change n rhs
      (.disj lhs rhs, n)
  | n, .impl lhs rhs =>
      let (lhs, n) := mapIdxFrom change n lhs
      let (rhs, n) := mapIdxFrom change n rhs
      (.impl lhs rhs, n)

/-- Change the variables, numbered from left to right. -/
def mapIdx (change : Nat → Atom → Other) (f : Formula Atom) : Formula Other :=
  (mapIdxFrom change 0 f).1

def bind (σ : Atom → Formula Other) : Formula Atom → Formula Other
  | .var name => σ name
  | .conj lhs rhs => .conj (lhs.bind σ) (rhs.bind σ)
  | .disj lhs rhs => .disj (lhs.bind σ) (rhs.bind σ)
  | .impl lhs rhs => .impl (lhs.bind σ) (rhs.bind σ)

def map (rename : Atom → Other) (f : Formula Atom) : Formula Other :=
  f.bind fun name => .var (rename name)

/-! ### Builders -/

def vars (names : String) : List (Formula String) :=
  (Text.words names.toList).map fun name => .var (String.ofList name)

/-- Conjunction of two formulas or more, nested to the left. -/
def conjAll (lhs rhs : Formula Atom) (more : List (Formula Atom)) : Formula Atom :=
  more.foldl .conj (.conj lhs rhs)

/-- Disjunction of two formulas or more, nested to the left. -/
def disjAll (lhs rhs : Formula Atom) (more : List (Formula Atom)) : Formula Atom :=
  more.foldl .disj (.disj lhs rhs)

/-- Implication between two formulas or more, nested to the right. -/
def implAll (lhs rhs : Formula Atom) : List (Formula Atom) → Formula Atom
  | [] => .impl lhs rhs
  | next :: more => .impl lhs (implAll rhs next more)

end Formula

/-! ### Texts in messages -/

/-- How messages write an atom that stands as a formula. -/
class AtomText (Atom : Type) where
  describe : Atom → String

instance : AtomText String := ⟨fun name => "Var(name=" ++ Text.quoted name ++ ")"⟩

/-- The text of a formula in messages: its constructors, written out. -/
def Formula.describe {Atom : Type} [AtomText Atom] : Formula Atom → String
  | .var name => AtomText.describe name
  | .conj lhs rhs => "Conj(lhs=" ++ lhs.describe ++ ", rhs=" ++ rhs.describe ++ ")"
  | .disj lhs rhs => "Disj(lhs=" ++ lhs.describe ++ ", rhs=" ++ rhs.describe ++ ")"
  | .impl lhs rhs => "Impl(lhs=" ++ lhs.describe ++ ", rhs=" ++ rhs.describe ++ ")"

end Deduction
