import Deduction.Text.Basic
import Deduction.Text.Printable

/-!
Quoted texts, as messages show them.

A text stands between single quotes, or between double quotes when it holds a single quote and no
double one. The quote in use and the backslash are escaped, and so is every code point that cannot
be shown as itself.
-/

namespace Deduction.Text

/-- The `width` lowest hexadecimal digits of a number, the highest of them first. -/
def hexDigits : (width : Nat) → Nat → List Char
  | 0, _ => []
  | width + 1, n => hexDigits width (n / 16) ++ [Nat.digitChar (n % 16)]

/-- A code point in the shortest of the three escaped forms that holds it. -/
def escapedCode (n : Nat) : List Char :=
  if n < 0x100 then '\\' :: 'x' :: hexDigits 2 n
  else if n < 0x10000 then '\\' :: 'u' :: hexDigits 4 n
  else '\\' :: 'U' :: hexDigits 8 n

def quotedChar (mark c : Char) : List Char :=
  if c = mark ∨ c = '\\' then ['\\', c]
  else if c = '\n' then ['\\', 'n']
  else if c = '\r' then ['\\', 'r']
  else if c = '\t' then ['\\', 't']
  else if isPrintable c then [c]
  else escapedCode c.toNat

def quotedPoint (mark : Char) : Point → List Char
  | .char c => quotedChar mark c
  | .lone half => escapedCode half.code

/-- The quote that needs no escape inside the text, the single one if there is a choice. -/
def quoteMark (ps : List Point) : Char :=
  if ps.contains '\'' && !ps.contains '"' then '"' else '\''

def quotedPoints (ps : List Point) : List Char :=
  let mark := quoteMark ps
  mark :: ps.flatMap (quotedPoint mark) ++ [mark]

/-- What is quoted is always a string. -/
def quoted (t : Text) : String := String.ofList (quotedPoints t.points)

end Deduction.Text
