import Deduction.Command.World
import Deduction.Settings.EnvFile

/-!
The variables of the world around the program: those of the environment, and those of a file of
variables if there is one.
-/

namespace Deduction.EnvFile

/-- The environment after the bytes of a file of variables have been loaded. -/
def environmentAfter (environment : List (String × String)) :
    Option (List UInt8) → Except VariablesError (List (String × String))
  | none => .ok environment
  | some bytes =>
      match textOfBytes bytes with
      | .error e => .error (.encoding e)
      | .ok text =>
          match load environment text with
          | .error refusal => .error (.refused refusal.message)
          | .ok all => .ok all

def warningsOfBytes (envFile : Option (List UInt8)) : List String :=
  match textOfBytes (envFile.getD []) with
  | .ok text => warnings text
  | .error _ => []

end Deduction.EnvFile
