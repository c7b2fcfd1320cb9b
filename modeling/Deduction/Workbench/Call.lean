import Deduction.Text.Quoted

/-!
Calls with too few or too many arguments.
-/

namespace Deduction

/-- A call with the wrong number of arguments, which are given in the order of the parameters. -/
structure WrongCount where
  callee : String
  params : List String
  given : Nat
  deriving DecidableEq, Repr

namespace WrongCount

def listed (texts : List String) : String :=
  match texts.reverse with
  | [] => ""
  | [only] => only
  | [second, first] => first ++ " and " ++ second
  | last :: others => ", ".intercalate others.reverse ++ ", and " ++ last

def arguments (count : Nat) : String :=
  if count = 1 then s!"{count} positional argument" else s!"{count} positional arguments"

def message (e : WrongCount) : String :=
  let missing := (e.params.drop e.given).map fun (param : String) => Text.quoted param
  if missing.isEmpty then
    let verb := if e.given = 1 then "was" else "were"
    s!"{e.callee}() takes {arguments e.params.length} but {e.given} {verb} given"
  else
    let noun := if missing.length = 1 then "argument" else "arguments"
    s!"{e.callee}() missing {missing.length} required positional {noun}: {listed missing}"

end WrongCount

end Deduction
