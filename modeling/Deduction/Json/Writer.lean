import Deduction.Json.Basic

/-!
Writing Json values: on one line, or with every item on a line of its own.
-/

namespace Deduction.Json

/-- A code point inside a written string. Only quotes, backslashes and control characters are
escaped. -/
def writtenPoint (p : Point) : List Point :=
  if p = '"' then ['\\', '"']
  else if p = '\\' then ['\\', '\\']
  else if p = '\n' then ['\\', 'n']
  else if p = '\r' then ['\\', 'r']
  else if p = '\t' then ['\\', 't']
  else if p = '\x08' then ['\\', 'b']
  else if p = '\x0c' then ['\\', 'f']
  else if p.code < 0x20 then '\\' :: 'u' :: (Text.hexDigits 4 p.code).map .char
  else [p]

def writtenText (t : Text) : List Point :=
  .char '"' :: t.points.flatMap writtenPoint ++ [.char '"']

def writtenReal : Decimal.Double → List Point
  | .nan => Text.points "NaN"
  | .infinite negative => Text.points (if negative then "-Infinity" else "Infinity")
  | x => Text.points (realText x)

def writtenScalar : Json → List Point
  | .null => Text.points "null"
  | .bool value => Text.points (if value then "true" else "false")
  | .int value => Text.points (toString value)
  | .real value => writtenReal value
  | .str value => writtenText value
  | _ => []

mutual

def compact : Json → List Point
  | .arr items => .char '[' :: compactItems items ++ [.char ']']
  | .obj fields => .char '\x7b' :: compactFields fields ++ [.char '\x7d']
  | value => writtenScalar value

def compactItems : List Json → List Point
  | [] => []
  | [item] => compact item
  | item :: rest => compact item ++ .char ',' :: compactItems rest

def compactFields : List (Text × Json) → List Point
  | [] => []
  | [(key, value)] => writtenText key ++ .char ':' :: compact value
  | (key, value) :: rest =>
      writtenText key ++ .char ':' :: compact value ++ .char ',' :: compactFields rest

end

def newline (level : Nat) : List Point := .char '\n' :: List.replicate (2 * level) (.char ' ')

mutual

/-- A value over several lines, its first one started at the given level of nesting. -/
def indented (level : Nat) : Json → List Point
  | .arr [] => Text.points "[]"
  | .arr (item :: rest) =>
      .char '[' :: indentedItems (level + 1) (item :: rest) ++ newline level ++ [.char ']']
  | .obj [] => ['\x7b', '\x7d']
  | .obj (field :: rest) =>
      .char '\x7b' :: indentedFields (level + 1) (field :: rest) ++ newline level ++ [.char '\x7d']
  | value => writtenScalar value

def indentedItems (level : Nat) : List Json → List Point
  | [] => []
  | [item] => newline level ++ indented level item
  | item :: rest => newline level ++ indented level item ++ .char ',' :: indentedItems level rest

def indentedFields (level : Nat) : List (Text × Json) → List Point
  | [] => []
  | [(key, value)] =>
      newline level ++ writtenText key ++ .char ':' :: .char ' ' :: indented level value
  | (key, value) :: rest =>
      newline level ++ writtenText key ++ .char ':' :: .char ' ' :: indented level value ++
        .char ',' :: indentedFields level rest

end

def pretty (value : Json) : Text := .ofPoints (indented 0 value)

def line (value : Json) : Text := .ofPoints (compact value)

end Deduction.Json
