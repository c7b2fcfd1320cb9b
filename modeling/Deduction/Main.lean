import Deduction.Command.Environment
import Deduction.Command.Run

/-!
The command line.
-/

namespace Deduction.Main

def fileError : IO.Error → FileError
  | .noFileOrDirectory _ _ _ => .notFound
  | .inappropriateType _ code details => ofCode code details
  | .resourceVanished code details => ofCode code details
  | .permissionDenied _ code details => ofCode code details
  | .otherError code details => ofCode code details
  | e => .other 5 (toString e)
where
  /-- Codes may come with a minus sign. -/
  ofCode (code : UInt32) (details : String) : FileError :=
    match code.toInt32.toInt.natAbs with
    | 20 => .notADirectory
    | 21 => .isDirectory
    | 36 => .nameTooLong
    | code => .other code details

def readBytes (path : String) : IO (Except FileError (List UInt8)) := do
  try
    return .ok (← IO.FS.readBinFile path).toList
  catch e =>
    return .error (fileError e)

/-- The texts among some paths. Others name no file that can be asked for. -/
def strings (paths : List Text) : List String :=
  paths.filterMap fun path =>
    match path with
    | .plain text => some text
    | .broken _ _ _ => none

def filesOf (args : List String) : List String :=
  match Command.Invocation.ofArguments args with
  | .ok ⟨_, _, .check files _⟩ => strings (files.map fun (file : String) => normalPath file)
  | _ => []

/-- The places of a file of variables: a directory and all those around it, innermost first. -/
def envFiles (directory : String) : List String :=
  let parts := strings (pathParts directory)
  (List.range (parts.length + 1)).map fun up =>
    "/" ++ "/".intercalate (parts.take (parts.length - up) ++ [".env"])

def firstFile : List String → IO (Option (List UInt8))
  | [] => return none
  | path :: rest => do
      match ← readBytes path with
      | .ok bytes => return some bytes
      | .error _ => firstFile rest

def binding (name : String) : IO (Option (String × String)) := do
  return (← IO.getEnv name).map fun value => (name, value)

/-- The variables that the program looks at: its own, and those that a file of variables refers
to. -/
def namesOf (envFile : Option (List UInt8)) : List String :=
  let referred := match textOfBytes (envFile.getD []) with
    | .ok text => EnvFile.referredNames (EnvFile.bindings text)
    | .error _ => []
  [Settings.levelVariable, Settings.asciiVariable] ++ referred

def readWorld (args : List String) : IO World := do
  let envFile ← firstFile (envFiles (← IO.currentDir).toString)
  let environment ← (namesOf envFile).filterMapM binding
  let contents ← (filesOf args).mapM fun path => do return (Text.plain path, ← readBytes path)
  return {
    start := .called
    environment := EnvFile.environmentAfter environment envFile
    warnings := EnvFile.warningsOfBytes envFile
    read := fun path => (contents.lookup path).getD (.error .notFound)
    prints := fun _ => false }

/-- Characters as they are, and surrogates escaped. -/
def printable (t : Text) : String :=
  String.join <| t.points.map fun
    | .char c => String.singleton c
    | .lone half => String.ofList (Text.escapedCode half.code)

/-- The depth to which this program goes. -/
@[reducible]
def limits : Limits := .uniform 500

end Deduction.Main

open Deduction in
def main (args : List String) : IO UInt32 := do
  let outcome := @Command.run Main.limits (← Main.readWorld args) args
  IO.print (Main.printable (Command.endLines outcome.output))
  IO.eprint (Main.printable (Command.endLines outcome.errors))
  if let .aborted reason := outcome.status then
    IO.eprintln (Main.printable reason.message)
  return outcome.status.code.toUInt32
