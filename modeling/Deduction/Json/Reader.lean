import Deduction.Json.Token

/-!
Reading a Json text.

The reader goes through the tokens once and keeps the containers that are still open on a stack. A
text that opens more containers inside each other than the limit allows is refused where it does.
-/

namespace Deduction.Json

/-- Where in a text something stands: lines and columns count from one, offsets from zero. -/
structure Place where
  line : Nat
  column : Nat
  offset : Nat
  deriving DecidableEq, Repr

def Place.of (text : List Point) (offset : Nat) : Place :=
  let before := text.take offset
  { line := before.count (.char '\n') + 1
    column := (before.reverse.takeWhile (· ≠ .char '\n')).length + 1
    offset }

inductive ReadError where
  | malformed (fault : Fault) (place : Place)
  | tooManyDigits (digits : Nat)
  | tooDeep
  deriving DecidableEq, Repr

/-- A container that waits for one of its values: the values before it, last one first, or the
fields before it and the key of the value. -/
inductive Frame where
  | array (done : List Json)
  | object (done : List (Text × Json)) (key : Text)

inductive Expect where
  | value
  | firstItem
  | firstKey
  | key (done : List (Text × Json))
  | colon (done : List (Text × Json)) (key : Text)
  | after (value : Json)

/-- Why a run of the reader stops, with the offset of a fault. -/
inductive Halt where
  | fault (fault : Fault) (offset : Nat)
  | tooManyDigits (digits : Nat)
  | tooDeep

def startValue (limit : Nat) (stack : List Frame) (t : Located) :
    Except Halt (List Frame × Expect) :=
  match t.token with
  | .scalar value => .ok (stack, .after value)
  | .text value => .ok (stack, .after (.str value))
  | .openBracket => if limit ≤ stack.length then .error .tooDeep else .ok (stack, .firstItem)
  | .openBrace => if limit ≤ stack.length then .error .tooDeep else .ok (stack, .firstKey)
  | .brokenText fault offset => .error (.fault fault (t.start + offset))
  | .longInteger digits => .error (.tooManyDigits digits)
  | _ => .error (.fault .value t.start)

def startKey (stack : List Frame) (done : List (Text × Json)) (t : Located) :
    Except Halt (List Frame × Expect) :=
  match t.token with
  | .text key => .ok (stack, .colon done key)
  | .brokenText fault offset => .error (.fault fault (t.start + offset))
  | _ => .error (.fault .propertyName t.start)

def continueFrame (frame : Frame) (stack : List Frame) (value : Json) (t : Located) :
    Except Halt (List Frame × Expect) :=
  match frame, t.token with
  | .array done, .comma => .ok (.array (value :: done) :: stack, .value)
  | .array done, .closeBracket => .ok (stack, .after (.arr (value :: done).reverse))
  | .object done key, .comma => .ok (stack, .key (Ordered.put key value done))
  | .object done key, .closeBrace => .ok (stack, .after (.obj (Ordered.put key value done)))
  | _, _ => .error (.fault .comma t.start)

def step (limit : Nat) (stack : List Frame) (expect : Expect) (t : Located) :
    Except Halt (List Frame × Expect) :=
  match expect with
  | .value => startValue limit stack t
  | .firstItem =>
      match t.token with
      | .closeBracket => .ok (stack, .after (.arr []))
      | _ => startValue limit (.array [] :: stack) t
  | .firstKey =>
      match t.token with
      | .closeBrace => .ok (stack, .after (.obj []))
      | _ => startKey stack [] t
  | .key done => startKey stack done t
  | .colon done key =>
      match t.token with
      | .colon => .ok (.object done key :: stack, .value)
      | _ => .error (.fault .colon t.start)
  | .after value =>
      match stack with
      | [] => .error (.fault .extraData t.start)
      | frame :: outer => continueFrame frame outer value t

/-- The value of a list of tokens, read inside the open containers. -/
def run (limit : Nat) : List Frame → Expect → List Located → Except Halt Json
  | [], .after value, [⟨.stop, _⟩] => .ok value
  | _, _, [] => .error (.fault .value 0)
  | stack, expect, t :: rest =>
      match step limit stack expect t with
      | .error halt => .error halt
      | .ok (stack, expect) => run limit stack expect rest

/-- Read a text with at most `limit` containers inside each other. -/
def read (limit : Nat) (text : List Point) : Except ReadError Json :=
  let malformed fault offset := ReadError.malformed fault (Place.of text offset)
  match text with
  | .char '\ufeff' :: _ => .error (malformed .byteOrderMark 0)
  | _ =>
      match run limit [] .value (tokens text) with
      | .ok value => .ok value
      | .error (.fault fault offset) => .error (malformed fault offset)
      | .error (.tooManyDigits digits) => .error (.tooManyDigits digits)
      | .error .tooDeep => .error .tooDeep

def Fault.message : Fault → String
  | .value => "Expecting value"
  | .propertyName => "Expecting property name enclosed in double quotes"
  | .colon => "Expecting ':' delimiter"
  | .comma => "Expecting ',' delimiter"
  | .unterminated => "Unterminated string starting at"
  | .control => "Invalid control character at"
  | .escape => "Invalid \\escape"
  | .unicodeEscape => "Invalid \\uXXXX escape"
  | .extraData => "Extra data"
  | .byteOrderMark => "Unexpected UTF-8 BOM (decode using utf-8-sig)"

def ReadError.message : ReadError → String
  | .malformed fault place =>
      s!"{fault.message}: line {place.line} column {place.column} (char {place.offset})"
  | .tooManyDigits digits =>
      s!"Exceeds the limit ({maxIntegerDigits} digits) for integer string conversion: value has "
        ++ s!"{digits} digits; use sys.set_int_max_str_digits() to increase the limit"
  | .tooDeep => "nested too deeply"

end Deduction.Json
