/-!
Texts.

A text is a sequence of code points. Most of these are characters. Surrogates are not: they come in
pairs in some encodings, and half of such a pair may get into a text on its own. So a text is a
string, or it is a string up to its first lone surrogate and another text after that.
-/

namespace Deduction

/-- A code point that is no character. -/
structure Surrogate where
  code : Nat
  inRange : 0xD800 ≤ code ∧ code < 0xE000
  deriving DecidableEq, Repr

inductive Point where
  | char (c : Char)
  | lone (half : Surrogate)
  deriving DecidableEq, Repr

namespace Point

instance : Coe Char Point := ⟨char⟩

def code : Point → Nat
  | .char c => c.toNat
  | .lone half => half.code

end Point

inductive Text where
  | plain (text : String)
  | broken (before : String) (half : Surrogate) (after : Text)
  deriving DecidableEq, Repr

namespace Text

instance : Coe String Text := ⟨plain⟩

instance : Inhabited Text := ⟨""⟩

def points : Text → List Point
  | .plain text => text.toList.map .char
  | .broken before half after => before.toList.map .char ++ .lone half :: after.points

/-- The text of some code points that follow the given characters, which come last one first. -/
def gather (done : List Char) : List Point → Text
  | [] => .plain (String.ofList done.reverse)
  | .char c :: rest => gather (c :: done) rest
  | .lone half :: rest => .broken (String.ofList done.reverse) half (gather [] rest)

def ofPoints (ps : List Point) : Text := gather [] ps

def isEmpty (t : Text) : Bool := t = ""

protected def append : Text → Text → Text
  | .plain a, .plain b => .plain (a ++ b)
  | .plain a, .broken b half after => .broken (a ++ b) half after
  | .broken a half after, t => .broken a half (after.append t)

instance : Append Text := ⟨Text.append⟩

def intercalate (separator : Text) : List Text → Text
  | [] => ""
  | [t] => t
  | t :: rest => t ++ separator ++ intercalate separator rest

/-- Texts are ordered by their code points. -/
instance : LT Text := ⟨fun a b => a.points.map Point.code < b.points.map Point.code⟩

instance (a b : Text) : Decidable (a < b) :=
  inferInstanceAs (Decidable (a.points.map Point.code < b.points.map Point.code))

end Text

end Deduction
