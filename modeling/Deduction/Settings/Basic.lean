import Deduction.Log
import Deduction.Ordered
import Deduction.Text.Blank
import Deduction.Text.LetterCase
import Deduction.Text.Quoted

/-!
Settings of the program, from variables of the environment.
-/

namespace Deduction

structure Settings where
  level : LogLevel
  ascii : Bool
  deriving DecidableEq, Repr

namespace Settings

def levelVariable : String := "NATDED_LOG_LEVEL"

def asciiVariable : String := "NATDED_ASCII"

inductive Error where
  | level (text : String)
  | ascii (text : String)
  deriving DecidableEq, Repr

def Error.message : Error → String
  | .level text =>
      levelVariable ++ " must be one of " ++ ", ".intercalate (LogLevel.all.map LogLevel.name)
        ++ ", got " ++ Text.quoted text
  | .ascii text => asciiVariable ++ " must be a boolean, got " ++ Text.quoted text

/-- The words for yes and no, in lower case. No word at all means no. -/
def switch? (text : String) : Option Bool :=
  if ["1", "true", "yes", "on"].contains text then some true
  else if ["0", "false", "no", "off", ""].contains text then some false
  else none

def readLevel (text : String) : Except Error LogLevel :=
  let text := String.ofList (Text.toUpperCase (Text.trim text.toList))
  match LogLevel.ofName? text with
  | some level => .ok level
  | none => .error (.level text)

def readAscii (text : String) : Except Error Bool :=
  let text := String.ofList (Text.toLowerCase (Text.trim text.toList))
  match switch? text with
  | some ascii => .ok ascii
  | none => .error (.ascii text)

def ofVariables (bindings : List (String × String)) : Except Error Settings := do
  let value (name default : String) := (Ordered.find? name bindings).getD default
  let level ← readLevel (value levelVariable "WARNING")
  let ascii ← readAscii (value asciiVariable "")
  return { level, ascii }

end Settings

end Deduction
