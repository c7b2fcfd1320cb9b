import Deduction.Ordered
import Deduction.Text.Blank

/-!
Files of variables, one `NAME=value` to a line.

A value may stand between quotes, with escapes and on several lines. Without quotes it ends with the
line, or before a comment that is set off by a blank. A name without a value takes away a value that
it had. What does not have this form is left out up to the end of its line, with a warning.
-/

namespace Deduction.EnvFile

/-- The result of reading a part of a text: what it means and the text after it, or the text that is
left where the part goes wrong. -/
abbrev Reading (α : Type) := Except (List Char) (α × List Char)

/-- A blank that does not end a line. -/
def isGap (c : Char) : Bool := Text.isBlank c && c != '\n'

def skipGap (cs : List Char) : List Char := cs.dropWhile isGap

def afterLine (cs : List Char) : List Char := (cs.dropWhile (· != '\n')).drop 1

/-! ### Names -/

def isNameChar (c : Char) : Bool := c != '=' && c != '#' && !Text.isBlank c

/-- The text after the word `export` that may come before a name. -/
def skipExport (cs : List Char) : List Char :=
  let (word, after) := cs.splitAt 6
  if word = "export".toList && after.head?.any isGap then skipGap after else cs

/-- A name, which may stand between single quotes. There is none before a comment. -/
def readName : List Char → Reading (Option String)
  | '#' :: rest => .ok (none, '#' :: rest)
  | '\'' :: rest =>
      match rest.span (· != '\'') with
      | (c :: name, _ :: after) => .ok (some (String.ofList (c :: name)), after)
      | _ => .error ('\'' :: rest)
  | cs =>
      match cs.span isNameChar with
      | ([], _) => .error cs
      | (name, after) => .ok (some (String.ofList name), after)

/-! ### Values between quotes -/

/-- The text before the first quote that has no backslash before it, and the text after that
quote. -/
def beforeQuote? (mark : Char) : List Char → Option (List Char × List Char)
  | [] => none
  | '\\' :: c :: rest =>
      if c = mark then (beforeQuote? mark rest).map fun (value, after) => ('\\' :: c :: value, after)
      else (beforeQuote? mark (c :: rest)).map fun (value, after) => ('\\' :: value, after)
  | c :: rest =>
      if c = mark then some ([], rest)
      else (beforeQuote? mark rest).map fun (value, after) => (c :: value, after)

/-- The text before the last quote, and the text after it. -/
def beforeLastQuote? (mark : Char) (cs : List Char) : Option (List Char × List Char) :=
  match cs.reverse.span (· != mark) with
  | (_, []) => none
  | (after, _ :: before) => some (before.reverse, after.reverse)

/-- The text between quotes. A quote after a backslash ends it only if it is the last one and there
is no other that could. -/
def quoted? (mark : Char) (cs : List Char) : Option (List Char × List Char) :=
  beforeQuote? mark cs <|> beforeLastQuote? mark cs

/-- The control characters that a letter after a backslash stands for. -/
def controlEscapes : List (Char × Char) := [
  ('a', '\x07'), ('b', '\x08'), ('f', '\x0c'), ('n', '\n'), ('r', '\r'), ('t', '\t'),
  ('v', '\x0b')]

/-- The character that a backslash and the given one stand for between quotes. -/
def escaped? (mark c : Char) : Option Char :=
  if c = '\\' ∨ c = '\'' then some c
  else if mark = '"' then if c = '"' then some c else controlEscapes.lookup c
  else none

/-- Replace the escapes. A backslash that starts none stands for itself. -/
def unescape (mark : Char) : List Char → List Char
  | [] => []
  | '\\' :: c :: rest =>
      match escaped? mark c with
      | some plain => plain :: unescape mark rest
      | none => '\\' :: c :: unescape mark rest
  | c :: rest => c :: unescape mark rest

/-! ### Values -/

/-- The text before a comment that follows a blank. -/
def beforeComment : List Char → List Char
  | [] => []
  | c :: rest =>
      if Text.isBlank c && (Text.trimLeft rest).head? == some '#' then []
      else c :: beforeComment rest

def readValue : List Char → Reading String
  | [] => .ok ("", [])
  | c :: rest =>
      if c = '\'' ∨ c = '"' then
        match quoted? c rest with
        | some (value, after) => .ok (String.ofList (unescape c value), after)
        | none => .error (c :: rest)
      else
        let (line, after) := (c :: rest).span (· != '\n')
        .ok (String.ofList (Text.trimRight (beforeComment line)), after)

/-! ### Lines -/

/-- The end of a line, which may come after a comment. -/
def readEnd (cs : List Char) : Reading Unit :=
  let after := match skipGap cs with
    | '#' :: rest => rest.dropWhile (· != '\n')
    | rest => rest
  match after with
  | [] => .ok ((), [])
  | c :: rest => if c = '\n' then .ok ((), rest) else .error after

/-- What a line says of a name: a value, or that there is none. -/
abbrev Binding := String × Option String

def readLine (cs : List Char) : Except (List Char) (Option Binding × List Char) := do
  let (name, cs) ← readName (skipExport cs)
  let (value, cs) ← match skipGap cs with
    | '=' :: rest => do
        let (value, after) ← readValue (skipGap rest)
        pure (some value, after)
    | rest => pure (none, rest)
  let ((), cs) ← readEnd cs
  return (name.map fun name => (name, value), cs)

inductive Statement where
  | binding (binding : Binding)
  | comment
  /-- What does not have the form of a line, with the number of the line on which it starts. -/
  | unreadable (line : Nat)
  deriving DecidableEq, Repr

def Statement.binding? : Statement → Option Binding
  | .binding found => some found
  | _ => none

def Statement.warning? : Statement → Option String
  | .unreadable line => some s!"python-dotenv could not parse statement starting at line {line}"
  | _ => none

/-- The statements of a text whose first line has the given number. Empty lines belong to the
statement after them, and every statement leaves a shorter text. -/
def statements (line : Nat) (text : List Char) : List Statement :=
  match Text.trimLeft text with
  | [] => []
  | c :: rest =>
      let (statement, after) : Statement × List Char := match readLine (c :: rest) with
        | .ok (some found, after) => (.binding found, after)
        | .ok (none, after) => (.comment, after)
        | .error left => (.unreadable line, afterLine left)
      let next := line + (text.count '\n' - after.count '\n')
      if after.length < text.length then statement :: statements next after else [statement]
termination_by text.length

def bindings (text : List Char) : List Binding := (statements 1 text).filterMap Statement.binding?

/-- A warning for every statement of a text that cannot be read. -/
def warnings (text : List Char) : List String := (statements 1 text).filterMap Statement.warning?

/-! ### References to variables -/

/-- A reference to a variable in a value, with the text that stands for one that is not set. -/
structure Reference where
  name : String
  default : String
  deriving DecidableEq, Repr

inductive Piece where
  | char (c : Char)
  | reference (reference : Reference)
  deriving DecidableEq, Repr

/-- The rest of a reference after its opening brace, and the text after it. -/
def readReference? (cs : List Char) : Option (Reference × List Char) :=
  let name := cs.takeWhile fun c => c != '\x7d' && c != ':'
  match cs.drop name.length with
  | '\x7d' :: after => some (⟨String.ofList name, ""⟩, after)
  | ':' :: '-' :: rest =>
      match rest.span (· != '\x7d') with
      | (default, _ :: after) => some (⟨String.ofList name, String.ofList default⟩, after)
      | _ => none
  | _ => none

/-- The pieces of a value. Every piece leaves a shorter text. -/
def pieces : List Char → List Piece
  | [] => []
  | c :: rest =>
      let (piece, after) : Piece × List Char := match c, rest with
        | '$', '\x7b' :: inner =>
            match readReference? inner with
            | some (reference, after) => (.reference reference, after)
            | none => (.char c, rest)
        | _, _ => (.char c, rest)
      if after.length ≤ rest.length then piece :: pieces after else [piece]
termination_by value => value.length

/-- The value of a variable: the environment comes first, then what the file has set before. A name
that the file leaves without a value counts as empty. -/
def Reference.resolve (environment : List (String × String)) (known : List Binding)
    (r : Reference) : String :=
  match Ordered.find? r.name environment, Ordered.find? r.name known with
  | some value, _ => value
  | none, some value => value.getD ""
  | none, none => r.default

def expand (environment : List (String × String)) (known : List Binding) (value : String) :
    String :=
  String.join <| (pieces value.toList).map fun
    | .char c => c.toString
    | .reference r => r.resolve environment known

/-- The names with the values that they have in the end, their references replaced. A later line
wins. -/
def resolve (environment : List (String × String)) (bindings : List Binding) : List Binding :=
  bindings.foldl
    (fun known (name, value) => Ordered.put name (value.map (expand environment known)) known) []

def referredNames (bindings : List Binding) : List String :=
  bindings.flatMap fun (_, value) => (pieces (value.getD "").toList).filterMap fun
    | .char _ => none
    | .reference r => some r.name

/-! ### Setting variables -/

inductive Refusal where
  | nullByte
  | illegalName
  deriving DecidableEq, Repr

def Refusal.message : Refusal → String
  | .nullByte => "embedded null byte"
  | .illegalName => "illegal environment variable name"

def refusal? (name value : String) : Option Refusal :=
  if (name ++ value).toList.contains '\x00' then some .nullByte
  else if name.toList.contains '=' then some .illegalName
  else none

/-- The environment after a file has set what is not set yet. -/
def apply (environment : List (String × String)) :
    List Binding → Except Refusal (List (String × String))
  | [] => return environment
  | (_, none) :: rest => apply environment rest
  | (name, some value) :: rest =>
      if Ordered.has name environment then apply environment rest
      else
        match refusal? name value with
        | some refusal => throw refusal
        | none => return (← apply environment rest) ++ [(name, value)]

/-- The environment after the file with the given text has been loaded. -/
def load (environment : List (String × String)) (text : List Char) :
    Except Refusal (List (String × String)) :=
  apply environment (resolve environment (bindings text))

end Deduction.EnvFile
