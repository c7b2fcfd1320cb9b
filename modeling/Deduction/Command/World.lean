import Deduction.Settings.Basic
import Deduction.Text.Lines
import Deduction.Text.Utf8

/-!
What the program sees of the world around it: how it is started, variables, files and which texts
can be printed.
-/

namespace Deduction

inductive FileError where
  | notFound
  | isDirectory
  | notADirectory
  | nameTooLong
  | other (code : Nat) (reason : String)
  deriving DecidableEq, Repr

def FileError.code : FileError → Nat
  | .notFound => 2
  | .isDirectory => 21
  | .notADirectory => 20
  | .nameTooLong => 36
  | .other code _ => code

def FileError.reason : FileError → String
  | .notFound => "No such file or directory"
  | .isDirectory => "Is a directory"
  | .notADirectory => "Not a directory"
  | .nameTooLong => "File name too long"
  | .other _ reason => reason

/-- The message for a file that cannot be read under the given path. -/
def FileError.message (e : FileError) (path : Text) : String :=
  s!"[Errno {e.code}] {e.reason}: {Text.quoted path}"

/-! ### Paths -/

/-- The parts of a path, without those that lead nowhere. -/
def pathParts (path : Text) : List Text :=
  let runs := path.points.splitBy fun a b => (a = .char '/') = (b = .char '/')
  (runs.filter fun run => run.head? ≠ some (.char '/') && run ≠ [.char '.']).map .ofPoints

/-- The slashes that a path starts with, as far as they mean something: exactly two are kept. -/
def pathRoot (path : Text) : Text :=
  match (path.points.takeWhile (· = .char '/')).length with
  | 0 => ""
  | 2 => "//"
  | _ => "/"

def normalPath (path : Text) : Text :=
  let written := pathRoot path ++ Text.intercalate "/" (pathParts path)
  if written.isEmpty then "." else written

/-- The surrogates that stand for bytes of a path which is no text. -/
def standsForByte (half : Surrogate) : Bool := 0xDC80 ≤ half.code && half.code < 0xDD00

/-! ### The world -/

/-- How the program is started: called from another one, or on its own. -/
inductive Start where
  | called
  | alone
  deriving DecidableEq, Repr

/-- Why there are no variables to look at: a file of them is no text, or the environment refuses
what it holds. -/
inductive VariablesError where
  | encoding (error : Text.Utf8.Error)
  | refused (reason : String)
  deriving DecidableEq, Repr

structure World where
  start : Start
  environment : Except VariablesError (List (String × String))
  /-- What is wrong with the variables, though the program goes on. -/
  warnings : List String
  /-- The bytes of the file with the given normal path. -/
  read : Text → Except FileError (List UInt8)
  /-- The surrogates that can be printed, in addition to the characters. -/
  prints : Surrogate → Bool

def textOfBytes (bytes : List UInt8) : Except Text.Utf8.Error (List Char) :=
  return Text.unifyLineEnds (← Text.Utf8.decode bytes)

inductive SettingsError where
  | environment (error : VariablesError)
  | value (error : Settings.Error)
  deriving DecidableEq, Repr

def World.settings (w : World) : Except SettingsError Settings :=
  match w.environment with
  | .error e => .error (.environment e)
  | .ok bindings =>
      match Settings.ofVariables bindings with
      | .ok settings => .ok settings
      | .error e => .error (.value e)

end Deduction
