import Deduction.Decimal.Double
import Deduction.Text.Blank
import Deduction.Text.Digit

/-!
Reading a double-precision number from a text.

There may be blanks around the number, other than the information separators, and a sign before it.
A point may stand at either end of the digits, single underscores may stand between them, and the
words for infinity and for no number are read whatever the case of their letters.
-/

namespace Deduction.Decimal

/-- Drop the underscores, each of which has to stand between two digits. -/
def dropUnderscores (afterDigit : Bool) : List Char → Option (List Char)
  | [] => some []
  | '_' :: c :: rest =>
      if afterDigit && c.isDigit then (dropUnderscores true rest).map (c :: ·) else none
  | c :: rest => if c = '_' then none else (dropUnderscores c.isDigit rest).map (c :: ·)

/-- A digit of any script as the digit of the same value that numbers are written with. -/
def plainDigit (c : Char) : Char :=
  match Text.digit? c with
  | some n => Nat.digitChar n
  | none => c

/-- The value of an exponent with its mark, or zero where there is none. -/
def exponent? : List Char → Option Int
  | [] => some 0
  | mark :: '-' :: digits => (size? mark digits).map fun size => -size
  | mark :: '+' :: digits => (size? mark digits).map fun size => size
  | mark :: digits => (size? mark digits).map fun size => size
where
  size? (mark : Char) (digits : List Char) : Option Nat :=
    if (mark = 'e' || mark = 'E') && !digits.isEmpty && digits.all Char.isDigit then
      some (Nat.ofDigitChars 10 digits 0)
    else none

/-- A number without a sign: digits with a point among them, and an exponent. -/
def unsigned? (negative : Bool) (cs : List Char) : Option Double :=
  let whole := cs.takeWhile Char.isDigit
  let (fraction, rest) := match cs.dropWhile Char.isDigit with
    | '.' :: rest => (rest.takeWhile Char.isDigit, rest.dropWhile Char.isDigit)
    | rest => ([], rest)
  if whole.isEmpty && fraction.isEmpty then none
  else (exponent? rest).map fun exponent =>
    .ofDecimal negative (Nat.ofDigitChars 10 (whole ++ fraction) 0) (exponent - fraction.length)

def signed? : List Char → Option Double
  | '-' :: rest => magnitude? true rest
  | '+' :: rest => magnitude? false rest
  | cs => magnitude? false cs
where
  magnitude? (negative : Bool) (cs : List Char) : Option Double :=
    match String.ofList (cs.map Char.toLower) with
    | "inf" => some (.infinite negative)
    | "infinity" => some (.infinite negative)
    | "nan" => some .nan
    | _ => (dropUnderscores false cs).bind (unsigned? negative)

/-- A blank that may stand around a number. -/
def isMargin (c : Char) : Bool := Text.isBlank c && !(0x1C ≤ c.toNat && c.toNat ≤ 0x1F)

def dropMargins (cs : List Char) : List Char :=
  ((cs.dropWhile isMargin).reverse.dropWhile isMargin).reverse

def Double.ofText? (text : String) : Option Double :=
  signed? ((dropMargins text.toList).map plainDigit)

end Deduction.Decimal
