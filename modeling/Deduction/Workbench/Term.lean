import Deduction.Formula.Codec
import Deduction.Formula.Comparison
import Deduction.Formula.Parser
import Deduction.Formula.Printer
import Deduction.Json.Order
import Deduction.Workbench.Call

/-!
Terms: formulas whose variables may have any value as their name, and whose leaves may be values
that are no formulas.

Building a term checks nothing. Whoever takes a term apart goes through its leaves from left to
right, refuses the first one that will not do, and gives up where the nesting goes too deep.
-/

namespace Deduction

/-- What stands at a leaf: a variable, or a foreign value in the place of a formula. -/
inductive Leaf.Content where
  | name (value : Json)
  | foreign (value : Json)

namespace Leaf.Content

def same : Content → Content → Bool
  | .name a, .name b => a.same b
  | .foreign a, .foreign b => a.same b
  | _, _ => false

def alike : Content → Content → Bool
  | .name a, .name b => a.alike b
  | .foreign a, .foreign b => a.alike b
  | _, _ => false

theorem alike_self : (content : Content) → alike content content = true
  | .name value => value.alike_self
  | .foreign value => value.alike_self

end Leaf.Content

/-- A leaf of a term. Leaves that were made apart have different origins. -/
structure Leaf where
  content : Leaf.Content
  origin : Origin

namespace Leaf

/-- Leaves of one origin that are written alike are one object. -/
def shared (a b : Leaf) : Bool := decide (a.origin = b.origin) && a.content.alike b.content

theorem shared_self (leaf : Leaf) : shared leaf leaf = true := by
  simp [shared, Content.alike_self]

instance : Traced Leaf := ⟨shared, shared_self⟩

/-- A leaf equals itself. Other leaves are compared by their contents. -/
instance : BEq Leaf := ⟨fun a b => a.shared b || a.content.same b.content⟩

instance : ReflBEq Leaf := ⟨fun {leaf} => by simp [BEq.beq, shared_self]⟩

instance : AtomText Leaf where
  describe leaf :=
    match leaf.content with
    | .name value => "Var(name=" ++ value.describe ++ ")"
    | .foreign value => value.describe

end Leaf

abbrev Term := Formula Leaf

inductive TermError where
  | notAFormula (typeName : String)
  | unhashable (typeName : String)
  | notOrdered (error : Json.NotOrdered)
  /-- A name whose length is asked for, though it has none. -/
  | noLength (typeName : String)
  /-- A name that is read as a text, though it is none. -/
  | notAText (typeName : String)
  | parse (error : Formula.ParseError)
  | tooDeep
  deriving DecidableEq, Repr

def TermError.message : TermError → String
  | .notAFormula typeName => s!"Unknown formula type: <class '{typeName}'>"
  | .unhashable typeName => s!"unhashable type: '{typeName}'"
  | .notOrdered error => error.message
  | .noLength typeName => s!"object of type '{typeName}' has no len()"
  | .notAText typeName => s!"expected string or bytes-like object, got '{typeName}'"
  | .parse error => error.message
  | .tooDeep => "formula is nested too deeply"

namespace Term

def written (number : Nat) (contents : Formula Leaf.Content) : Term :=
  contents.mapIdx fun index content => ⟨content, number, index⟩

def foreign (origin : Origin) (value : Json) : Term := .var ⟨.foreign value, origin⟩

def contentsOf (f : Formula String) : Formula Leaf.Content :=
  f.map fun (name : String) => .name (.str name)

def ofFormula (number : Nat) (f : Formula String) : Term := written number (contentsOf f)

def typeName : Term → String
  | .var ⟨.name _, _⟩ => "Var"
  | .var ⟨.foreign value, _⟩ => value.typeName
  | .conj _ _ => "Conj"
  | .disj _ _ => "Disj"
  | .impl _ _ => "Impl"

/-- Whether a term is a formula at its root; its parts are not looked at. -/
def isFormula : Term → Bool
  | .var ⟨.foreign _, _⟩ => false
  | _ => true

/-! ### Going through the leaves -/

/-- Change the leaves from left to right, as long as none of them fails, in fewer than `room`
levels. -/
def traverseWithin {α : Type} (change : Leaf → Except TermError α) :
    (room : Nat) → Term → Except TermError (Formula α)
  | 0, _ => throw .tooDeep
  | _ + 1, .var leaf => return .var (← change leaf)
  | room + 1, .conj lhs rhs =>
      return .conj (← traverseWithin change room lhs) (← traverseWithin change room rhs)
  | room + 1, .disj lhs rhs =>
      return .disj (← traverseWithin change room lhs) (← traverseWithin change room rhs)
  | room + 1, .impl lhs rhs =>
      return .impl (← traverseWithin change room lhs) (← traverseWithin change room rhs)

def traverse [Limits] {α : Type} (change : Leaf → Except TermError α) (t : Term) :
    Except TermError (Formula α) :=
  traverseWithin change (Limits.rendering + 1) t

def nameOf (leaf : Leaf) : Except TermError Json :=
  match leaf.content with
  | .name value => .ok value
  | .foreign value => .error (.notAFormula value.typeName)

def hashable : Json → Except TermError Json
  | .arr items => .error (.unhashable (Json.arr items).typeName)
  | .obj fields => .error (.unhashable (Json.obj fields).typeName)
  | value => .ok value

/-- A term with its names in the form in which they are printed. -/
def printable [Limits] (t : Term) : Except TermError (Formula Text) :=
  t.traverse fun leaf => return (← nameOf leaf).plainText

def tryDescribe [Limits] (t : Term) : Except TermError String :=
  if t.exceeds Limits.describing then throw .tooDeep else return Formula.describe t

/-- The printed form of a term. A variable on its own is its name, which need not be a text. -/
def tryRender [Limits] (symbols : Symbols) (t : Term) : Except TermError Json := do
  let f ← printable t
  match t with
  | .var leaf => nameOf leaf
  | _ => return .str (f.render symbols)

/-- The names of the variables in increasing order. Of names that are the same the leftmost stays.
-/
def tryAtoms [Limits] (t : Term) : Except TermError (List Json) := do
  let names ← t.traverse fun leaf => do hashable (← nameOf leaf)
  let distinct := names.occurrences.foldl
    (fun seen name => if seen.any name.same then seen else seen ++ [name]) []
  match Json.sorted distinct with
  | .ok names => return names
  | .error e => throw (.notOrdered e)

def namesToJson : Formula Json → Json
  | .var name => .obj [("type", .str "var"), ("name", name)]
  | .conj lhs rhs => binary "conj" (namesToJson lhs) (namesToJson rhs)
  | .disj lhs rhs => binary "disj" (namesToJson lhs) (namesToJson rhs)
  | .impl lhs rhs => binary "impl" (namesToJson lhs) (namesToJson rhs)
where
  binary (kind : String) (lhs rhs : Json) : Json :=
    .obj [("type", .str kind), ("lhs", lhs), ("rhs", rhs)]

def tryToJson [Limits] (t : Term) : Except TermError Json :=
  return namesToJson (← t.traverse nameOf)

/-- Read a formula from a value. What is no text has to have a length, and none of it can be read.
-/
def readFormula [Limits] : Json → Except TermError (Formula String)
  | .str source => parseText source
  | .arr items =>
      if items.isEmpty then parseText "" else .error (.notAText (Json.arr items).typeName)
  | .obj fields =>
      if fields.isEmpty then parseText "" else .error (.notAText (Json.obj fields).typeName)
  | value => .error (.noLength value.typeName)
where
  parseText (source : Text) : Except TermError (Formula String) :=
    match Formula.parseText source with
    | .ok f => .ok f
    | .error e => .error (.parse e)

def tryReread [Limits] (symbols : Symbols) (t : Term) : Except TermError Bool := do
  let f ← readFormula (← t.tryRender symbols)
  return ofFormula 0 f == t

/-- Equality, unless it takes a look at too many levels. -/
def equal [Limits] (s t : Term) : Except TermError Bool :=
  match Formula.equal? s t with
  | some same => .ok same
  | none => .error .tooDeep

end Term

/-! ### Steps -/

structure NotAStep where
  typeName : String
  deriving DecidableEq, Repr

def NotAStep.message (e : NotAStep) : String := s!"Unknown step type: <class '{e.typeName}'>"

/-! ### Builders for any number of operands -/

inductive Connective where
  | conj
  | disj
  | impl
  deriving DecidableEq, Repr

def Connective.name : Connective → String
  | .conj => "conj"
  | .disj => "disj"
  | .impl => "impl"

/-- Join operands by a connective, nested as the parser does. -/
def Connective.join {Atom : Type} (c : Connective) :
    List (Formula Atom) → Except WrongCount (Formula Atom)
  | lhs :: rhs :: more =>
      .ok <| match c with
        | .conj => .conjAll lhs rhs more
        | .disj => .disjAll lhs rhs more
        | .impl => .implAll lhs rhs more
  | operands => .error ⟨c.name, ["lhs", "rhs"], operands.length⟩

end Deduction
