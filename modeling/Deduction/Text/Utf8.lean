import Deduction.Text.Quoted

/-!
Reading bytes as UTF-8, and what cannot be written so.

The decoder goes through the bytes once. A fault is told with the bytes of the broken character,
from its first byte to the last one that still fitted. Surrogates have no bytes of their own, and it
depends on the writer which of them pass all the same.
-/

namespace Deduction.Text.Utf8

inductive Fault where
  | invalidStart
  | invalidContinuation
  | endOfData
  deriving DecidableEq, Repr

structure Error where
  fault : Fault
  first : Nat
  /-- Where the broken character starts, and how many of its bytes are told. -/
  start : Nat
  size : Nat
  deriving DecidableEq, Repr

def Fault.reason : Fault → String
  | .invalidStart => "invalid start byte"
  | .invalidContinuation => "invalid continuation byte"
  | .endOfData => "unexpected end of data"

def Error.message (e : Error) : String :=
  let place :=
    if e.size = 1 then
      s!"byte 0x{String.ofList (hexDigits 2 e.first)} in position {e.start}"
    else
      s!"bytes in position {e.start}-{e.start + e.size - 1}"
  s!"'utf-8' codec can't decode {place}: {e.fault.reason}"

/-- A character of which some bytes are still to come. -/
structure Unfinished where
  first : Nat
  start : Nat
  value : Nat
  /-- How many bytes are to come after the next one. -/
  more : Nat
  /-- The least and the greatest value that the next byte may have. -/
  low : Nat
  high : Nat
  deriving DecidableEq, Repr

/-- What the first byte of a character of several bytes announces. Ranges leave out overlong forms,
surrogates and everything above the last character. -/
def announced? (start byte : Nat) : Option Unfinished :=
  if byte < 0xC2 then none
  else if byte < 0xE0 then some ⟨byte, start, byte - 0xC0, 0, 0x80, 0xBF⟩
  else if byte < 0xF0 then
    let low := if byte = 0xE0 then 0xA0 else 0x80
    let high := if byte = 0xED then 0x9F else 0xBF
    some ⟨byte, start, byte - 0xE0, 1, low, high⟩
  else if byte < 0xF5 then
    let low := if byte = 0xF0 then 0x90 else 0x80
    let high := if byte = 0xF4 then 0x8F else 0xBF
    some ⟨byte, start, byte - 0xF0, 2, low, high⟩
  else none

/-- Decode the bytes from a position on, the first of which may complete a character. -/
def decodeFrom (position : Nat) : Option Unfinished → List Nat → Except Error (List Char)
  | none, [] => .ok []
  | some p, [] => .error ⟨.endOfData, p.first, p.start, position - p.start⟩
  | none, byte :: rest =>
      if byte < 0x80 then do
        return Char.ofNat byte :: (← decodeFrom (position + 1) none rest)
      else
        match announced? position byte with
        | none => .error ⟨.invalidStart, byte, position, 1⟩
        | some p => decodeFrom (position + 1) (some p) rest
  | some p, byte :: rest =>
      if p.low ≤ byte ∧ byte ≤ p.high then
        let value := p.value * 64 + (byte - 0x80)
        match p.more with
        | 0 => do return Char.ofNat value :: (← decodeFrom (position + 1) none rest)
        | more + 1 =>
            decodeFrom (position + 1) (some ⟨p.first, p.start, value, more, 0x80, 0xBF⟩) rest
      else .error ⟨.invalidContinuation, p.first, p.start, position - p.start⟩

def decode (bytes : List UInt8) : Except Error (List Char) :=
  decodeFrom 0 none (bytes.map UInt8.toNat)

/-! ### Writing -/

/-- A surrogate without bytes, and how many surrogates stand in a row from there. -/
structure Unwritable where
  half : Surrogate
  start : Nat
  size : Nat
  deriving DecidableEq, Repr

def Unwritable.message (e : Unwritable) : String :=
  let place :=
    if e.size = 1 then
      s!"character '{String.ofList (escapedCode e.half.code)}' in position {e.start}"
    else
      s!"characters in position {e.start}-{e.start + e.size - 1}"
  s!"'utf-8' codec can't encode {place}: surrogates not allowed"

/-- How many surrogates stand at the start of a text. -/
def halves : List Point → Nat
  | .lone _ :: rest => halves rest + 1
  | _ => 0

/-- The first surrogate of a text that does not pass, from a position on. -/
def unwritableFrom? (passes : Surrogate → Bool) (position : Nat) : List Point → Option Unwritable
  | [] => none
  | .char _ :: rest => unwritableFrom? passes (position + 1) rest
  | .lone half :: rest =>
      if passes half then unwritableFrom? passes (position + 1) rest
      else some ⟨half, position, halves rest + 1⟩

def unwritable? (passes : Surrogate → Bool) (t : Text) : Option Unwritable :=
  unwritableFrom? passes 0 t.points

end Deduction.Text.Utf8
