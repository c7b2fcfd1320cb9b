import Deduction.Json.Basic

/-!
Tokens of a Json text.

Every token carries the offset of its first character. Where no token can be read the list ends
with a token that tells why, so that a reader which stops earlier never meets the fault.
-/

namespace Deduction.Json

inductive Fault where
  | value
  | propertyName
  | colon
  | comma
  | unterminated
  | control
  | escape
  | unicodeEscape
  | extraData
  | byteOrderMark
  deriving DecidableEq, Repr

inductive Token where
  | openBrace
  | closeBrace
  | openBracket
  | closeBracket
  | colon
  | comma
  | scalar (value : Json)
  | text (value : Text)
  /-- A string with a fault some characters after its opening quote. -/
  | brokenText (fault : Fault) (offset : Nat)
  /-- An integer with more digits than are read. -/
  | longInteger (digits : Nat)
  | junk
  | stop

structure Located where
  token : Token
  start : Nat

def maxIntegerDigits : Nat := 4300

def isSpace (c : Point) : Bool := c = ' ' || c = '\t' || c = '\n' || c = '\r'

def isDecimalDigit (c : Char) : Bool := '0' ≤ c && c ≤ '9'

/-- The digits at the start of a text. -/
def digits : List Point → List Char
  | .char c :: rest => if isDecimalDigit c then c :: digits rest else []
  | _ => []

def hexValue? (c : Char) : Option Nat :=
  if '0' ≤ c ∧ c ≤ '9' then some (c.toNat - '0'.toNat)
  else if 'a' ≤ c ∧ c ≤ 'f' then some (c.toNat - 'a'.toNat + 10)
  else if 'A' ≤ c ∧ c ≤ 'F' then some (c.toNat - 'A'.toNat + 10)
  else none

/-- The value of four hexadecimal digits that do not end the text. -/
def hexUnit? : List Point → Option Nat
  | .char a :: .char b :: .char c :: .char d :: _ :: _ => do
      let a ← hexValue? a
      let b ← hexValue? b
      let c ← hexValue? c
      let d ← hexValue? d
      return ((a * 16 + b) * 16 + c) * 16 + d
  | _ => none

def isHighSurrogate (n : Nat) : Bool := 0xD800 ≤ n && n < 0xDC00

def isLowSurrogate (n : Nat) : Bool := 0xDC00 ≤ n && n < 0xE000

/-- The code point of a code unit that stands alone, which is not a character if it is half a
surrogate pair. -/
def unitPoint (n : Nat) : Point :=
  if inRange : 0xD800 ≤ n ∧ n < 0xE000 then .lone ⟨n, inRange⟩ else .char (Char.ofNat n)

/-- The second half of a surrogate pair, written right after the first. -/
def lowSurrogate? : List Point → Option (Option Nat)
  | .char '\\' :: .char 'u' :: rest => some ((hexUnit? rest).filter isLowSurrogate)
  | _ => none

/-- Read what follows `\u`: the code point and how many characters were used. -/
def unicodeEscape? (cs : List Point) : Option (Point × Nat) := do
  let high ← hexUnit? cs
  match lowSurrogate? (cs.drop 4) with
  | some (some low) =>
      if isHighSurrogate high then
        return (Char.ofNat (0x10000 + (high - 0xD800) * 0x400 + (low - 0xDC00)), 10)
      else
        return (unitPoint high, 4)
  | _ => return (unitPoint high, 4)

def shortEscape? : Point → Option Char
  | .char '"' => some '"'
  | .char '\\' => some '\\'
  | .char '/' => some '/'
  | .char 'b' => some '\x08'
  | .char 'f' => some '\x0c'
  | .char 'n' => some '\n'
  | .char 'r' => some '\r'
  | .char 't' => some '\t'
  | _ => none

/-- Read the rest of a string whose first `offset` characters, the opening quote included, are
behind. The result holds the code points and the length of the whole string token. -/
def scanText (offset : Nat) (done : List Point) (cs : List Point) :
    Except (Fault × Nat) (List Point × Nat) :=
  match cs with
  | [] => .error (.unterminated, 0)
  | c :: rest =>
      if c = '"' then .ok (done.reverse, offset + 1)
      else if c = '\\' then
        match rest with
        | [] => .error (.unterminated, 0)
        | e :: more =>
            if e = 'u' then
              match unicodeEscape? more with
              | none => .error (.unicodeEscape, offset + 1)
              | some (point, used) => scanText (offset + 2 + used) (point :: done) (more.drop used)
            else
              match shortEscape? e with
              | none => .error (.escape, offset)
              | some char => scanText (offset + 2) (.char char :: done) more
      else if c.code < 0x20 then .error (.control, offset)
      else scanText (offset + 1) (c :: done) rest
termination_by cs.length
decreasing_by
  · simp only [List.length_cons, List.length_drop]; omega
  · simp only [List.length_cons]; omega
  · simp

/-- The digits of an integer part: a single zero, or digits that do not start with one. -/
def integerDigits : List Point → List Char
  | [] => []
  | c :: rest => if c = '0' then ['0'] else digits (c :: rest)

def fractionDigits : List Point → List Char
  | .char '.' :: rest => digits rest
  | _ => []

/-- The exponent part: its value and how many characters it takes. -/
def exponentPart? : List Point → Option (Int × Nat)
  | [] => none
  | e :: rest =>
      if e = 'e' ∨ e = 'E' then
        let signed := rest.head? = some (.char '-') ∨ rest.head? = some (.char '+')
        let digits := digits (if signed then rest.drop 1 else rest)
        if digits.isEmpty then none
        else
          let size : Int := Nat.ofDigitChars 10 digits 0
          some (if rest.head? = some (.char '-') then -size else size,
            digits.length + if signed then 2 else 1)
      else none

/-- Read a number: its token and how many characters it takes. -/
def scanNumber? (cs : List Point) : Option (Token × Nat) :=
  let negative := cs.head? = some (.char '-')
  let body := if negative then cs.drop 1 else cs
  let whole := integerDigits body
  if whole.isEmpty then none
  else
    let sign := if negative then 1 else 0
    let afterWhole := body.drop whole.length
    let fraction := fractionDigits afterWhole
    let pointed := if fraction.isEmpty then 0 else fraction.length + 1
    match exponentPart? (afterWhole.drop pointed), fraction.isEmpty with
    | none, true =>
        if maxIntegerDigits < whole.length then
          some (.longInteger whole.length, sign + whole.length)
        else
          let size : Int := Nat.ofDigitChars 10 whole 0
          some (.scalar (.int (if negative then -size else size)), sign + whole.length)
    | none, false =>
        some (.scalar (.real (.ofDecimal negative (Nat.ofDigitChars 10 (whole ++ fraction) 0)
          (-fraction.length))), sign + whole.length + pointed)
    | some (power, used), _ =>
        some (.scalar (.real (.ofDecimal negative (Nat.ofDigitChars 10 (whole ++ fraction) 0)
          (power - fraction.length))), sign + whole.length + pointed + used)

def literals : List (String × Json) := [
  ("null", .null), ("true", .bool true), ("false", .bool false), ("NaN", .real .nan),
  ("Infinity", .real (.infinite false)), ("-Infinity", .real (.infinite true))]

def scanLiteral? (cs : List Point) : Option (Token × Nat) :=
  literals.findSome? fun (word, value) =>
    if (Text.points word).isPrefixOf cs then some (.scalar value, word.length) else none

/-- The token at the start of a text and how many characters it takes. -/
def scanToken (c : Point) (rest : List Point) : Token × Nat :=
  if c = '\x7b' then (.openBrace, 1)
  else if c = '\x7d' then (.closeBrace, 1)
  else if c = '[' then (.openBracket, 1)
  else if c = ']' then (.closeBracket, 1)
  else if c = ':' then (.colon, 1)
  else if c = ',' then (.comma, 1)
  else if c = '"' then
    match scanText 1 [] rest with
    | .ok (points, used) => (.text (.ofPoints points), used)
    | .error (fault, offset) => (.brokenText fault offset, 1)
  else
    match scanLiteral? (c :: rest) <|> scanNumber? (c :: rest) with
    | some found => found
    | none => (.junk, 1)

/-- Whether nothing is read after a token. -/
def Token.isLast : Token → Bool
  | .brokenText _ _ => true
  | .longInteger _ => true
  | .junk => true
  | .stop => true
  | _ => false

/-- The tokens of a text that starts at the given offset. -/
def tokensFrom (start : Nat) (cs : List Point) : List Located :=
  match cs with
  | [] => [⟨.stop, start⟩]
  | c :: rest =>
      if isSpace c then tokensFrom (start + 1) rest
      else
        let (token, used) := scanToken c rest
        if token.isLast then [⟨token, start⟩]
        else ⟨token, start⟩ :: tokensFrom (start + 1 + (used - 1)) (rest.drop (used - 1))
termination_by cs.length
decreasing_by
  · simp
  · simp only [List.length_cons, List.length_drop]; omega

def tokens (cs : List Point) : List Located := tokensFrom 0 cs

end Deduction.Json
