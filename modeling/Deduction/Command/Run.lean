import Deduction.Catalogue
import Deduction.Command.Help
import Deduction.Command.World
import Deduction.Report

/-!
Running the program: a function from arguments and the world to what is printed.
-/

namespace Deduction.Command

/-- What ends the program in the middle of its work. -/
inductive Abort where
  | environment (error : VariablesError)
  | encoding (error : Text.Utf8.Error)
  | nullInPath
  | unwritablePath (error : Text.Utf8.Unwritable)
  | tooManyDigits (digits : Nat)
  | tooDeep
  | replay (error : ReplayError)
  | unprintable (error : Text.Utf8.Unwritable)
  deriving DecidableEq, Repr

def Abort.message : Abort → Text
  | .environment (.encoding error) => error.message
  | .environment (.refused reason) => reason
  | .encoding error => error.message
  | .nullInPath => "embedded null byte"
  | .unwritablePath error => error.message
  | .tooManyDigits digits => (LoadError.tooManyDigits digits).message
  | .tooDeep => LoadError.tooDeep.message
  | .replay (.invalid reason) => reason.message
  | .replay (.unknownRef ref) => Text.quoted ref
  | .unprintable error => error.message

/-- How the program ends: after its work, on account of its arguments, or in the middle. -/
inductive Status where
  | finished (code : Nat)
  | dismissed (code : Nat)
  | aborted (reason : Abort)
  deriving DecidableEq, Repr

def Status.code : Status → Nat
  | .finished code => code
  | .dismissed code => code
  | .aborted _ => 1

structure Outcome where
  output : List Text
  errors : List Text
  status : Status
  deriving DecidableEq, Repr

def endLines (lines : List Text) : Text := lines.foldl (fun text line => text ++ line ++ "\n") ""

structure Mode where
  level : LogLevel
  ascii : Bool
  deriving DecidableEq, Repr

def Mode.logLines (mode : Mode) (log : List LogEntry) : List Text :=
  (log.filter fun e => mode.level.rank ≤ e.level.rank).map LogEntry.line

/-! ### Checking scripts -/

def checkSource : Start → String
  | .called => "natded.cli"
  | .alone => "__main__"

def checkingEntry (start : Start) (path : Text) (script : Script Label String) : LogEntry :=
  ⟨.info, checkSource start, "Checking " ++ path ++ s!" ({script.steps.length} steps)"⟩

/-- What comes of a file that does not end the program: the lines for the error stream, and a report
if there is one. -/
abbrev FileResult := Except Abort (List Text × Option Report)

def checkScript [Limits] (start : Start) (mode : Mode) (path : Text)
    (script : Script Label String) : FileResult :=
  let log := mode.logLines (checkingEntry start path script :: Report.log script)
  match Report.ofScript script (some path) mode.ascii with
  | .ok report => .ok (log, some report)
  | .error .tooDeep =>
      .ok (log ++ [path ++ ": malformed script: formula is nested too deeply"], none)
  | .error (.replay e) => .error (.replay e)

/-- What is wrong with a path before any file is looked for. -/
def pathFault? (path : Text) : Option Abort :=
  match Text.Utf8.unwritable? standsForByte (normalPath path) with
  | some e => some (.unwritablePath e)
  | none => if path.points.contains (.char '\x00') then some .nullInPath else none

def checkText [Limits] (start : Start) (mode : Mode) (path text : Text) : FileResult :=
  match Script.load text with
  | .error (.tooManyDigits digits) => .error (.tooManyDigits digits)
  | .error .tooDeep => .error .tooDeep
  | .error (.format e) => .ok ([path ++ ": malformed script: " ++ e.message], none)
  | .ok script => checkScript start mode path script

def checkFile [Limits] (world : World) (mode : Mode) (path : Text) : FileResult :=
  match pathFault? path with
  | some reason => .error reason
  | none =>
      match world.read (normalPath path) with
      | .error e => .ok ([path ++ ": could not read file: " ++ e.message (normalPath path)], none)
      | .ok bytes =>
          match textOfBytes bytes with
          | .error e => .error (.encoding e)
          | .ok text => checkText world.start mode path (String.ofList text)

structure Checked where
  errors : List Text
  /-- A report for every file that holds a script. -/
  reports : List (Option Report)
  abort : Option Abort

/-- Check files one after another, as long as nothing aborts the program. -/
def checkFiles [Limits] (world : World) (mode : Mode) : List Text → Checked
  | [] => ⟨[], [], none⟩
  | path :: rest =>
      match checkFile world mode path with
      | .error reason => ⟨[], [], some reason⟩
      | .ok (errors, report) =>
          let later := checkFiles world mode rest
          ⟨errors ++ later.errors, report :: later.reports, later.abort⟩

/-! ### Printing reports -/

/-- The lines to print of a report, unless its conclusion goes too deep or its text has no bytes. -/
def printedText [Limits] (world : World) (mode : Mode) (report : Report) :
    Except Abort (List Text) :=
  if report.exceeds Limits.reporting then .error .tooDeep
  else
    match Text.Utf8.unwritable? world.prints (report.text mode.ascii) with
    | some e => .error (.unprintable e)
    | none => .ok (report.lines mode.ascii)

/-- The reports as one Json text. -/
def printedJson [Limits] (world : World) (reports : List Report) : Except Abort (List Text) :=
  if reports.any fun report => report.exceeds Limits.encoding then .error .tooDeep
  else
    let text := (Json.arr (reports.map Report.toJson)).pretty
    match Text.Utf8.unwritable? world.prints text with
    | some e => .error (.unprintable e)
    | none => .ok [text]

def printed [Limits] (world : World) (mode : Mode) (json : Bool) (reports : List Report) :
    List (Except Abort (List Text)) :=
  if json then [printedJson world reports] else reports.map (printedText world mode)

/-- What is printed before something cannot be, and why it cannot. -/
def printAll : List (Except Abort (List Text)) → List Text × Option Abort
  | [] => ([], none)
  | .error reason :: _ => ([], some reason)
  | .ok lines :: rest =>
      let later := printAll rest
      (lines ++ later.1, later.2)

def isProved : Option Report → Bool
  | some report => report.isSuccess
  | none => false

def runCheck [Limits] (world : World) (mode : Mode) (files : List Text) (json : Bool) : Outcome :=
  let checked := checkFiles world mode files
  match checked.abort with
  | some reason => ⟨[], checked.errors, .aborted reason⟩
  | none =>
      match printAll (printed world mode json (checked.reports.filterMap id)) with
      | (output, some reason) => ⟨output, checked.errors, .aborted reason⟩
      | (output, none) =>
          ⟨output, checked.errors, .finished (if checked.reports.all isProved then 0 else 1)⟩

/-! ### Parsing formulas -/

def parseFailed (reason : String) : Outcome := ⟨[], ["Parse error: " ++ reason], .finished 1⟩

def runParse [Limits] (mode : Mode) (text : Text) (json : Bool) : Outcome :=
  match Formula.parseText text with
  | .error e => parseFailed e.message
  | .ok f =>
      if f.exceeds (if json then Limits.encoding else Limits.rendering) then
        parseFailed "formula is nested too deeply"
      else
        let shown : String := f.render (.select mode.ascii)
        let output : List Text :=
          if json then [f.toJson.pretty]
          else [shown, "  atoms: " ++ ", ".intercalate f.atoms]
        ⟨output, [], .finished 0⟩

/-! ### Building examples -/

def nameWidth : Nat := 24

def padRight (width : Nat) (text : String) : String :=
  text ++ String.ofList (List.replicate (width - text.length) ' ')

/-- Lines for both streams, and whether every derivation is a proof. -/
structure Listing where
  output : List Text
  errors : List Text
  sound : Bool

/-- Build derivations in order, with fresh labels from the given number on. -/
def listExamples (mode : Mode) (serial : Nat) : List (String × Derivation Derivation.Prf) → Listing
  | [] => ⟨[], [], true⟩
  | (name, d) :: rest =>
      let (result, next, log) := Catalogue.build serial d
      let later := listExamples mode next rest
      let errors := mode.logLines log ++ later.errors
      let column := padRight nameWidth name ++ "  "
      match result with
      | .ok p =>
          ⟨(column ++ p.sequent.render (.select mode.ascii)) :: later.output, errors, later.sound⟩
      | .error e => ⟨(column ++ s!"× {e.kind}: " ++ e.message) :: later.output, errors, false⟩

def runExamples (mode : Mode) (names : List String) : Outcome :=
  match names.filter fun name => !Catalogue.names.contains name with
  | [] =>
      let chosen :=
        if names.isEmpty then Catalogue.all
        else names.filterMap fun name => (Catalogue.all.lookup name).map fun d => (name, d)
      let listing := listExamples mode 1 chosen
      ⟨listing.output, listing.errors, .finished (if listing.sound then 0 else 1)⟩
  | unknown =>
      ⟨[], ["Unknown example(s): " ++ ", ".intercalate unknown,
        "Available: " ++ ", ".intercalate Catalogue.names], .finished 1⟩

def allExamples : List Text := (listExamples ⟨.warning, false⟩ 1 Catalogue.all).output

/-! ### The program -/

def Invocation.work [Limits] (i : Invocation) (world : World) : Outcome :=
  match world.settings with
  | .error (.environment e) => ⟨[], [], .aborted (.environment e)⟩
  | .error (.value e) => ⟨[], ["Configuration error: " ++ e.message], .finished 1⟩
  | .ok settings =>
      let mode : Mode := ⟨i.level.getD settings.level, i.ascii.getD settings.ascii⟩
      match i.task with
      | .check files json => runCheck world mode (files.map .plain) json
      | .parse text json => runParse mode text json
      | .examples names => runExamples mode names
      | .help => ⟨Topic.program.help.map .plain, [], .finished 1⟩

/-- Work with the settings, after the warnings of reading them. -/
def Invocation.run [Limits] (i : Invocation) (world : World) : Outcome :=
  let outcome := i.work world
  { outcome with errors := world.warnings.map .plain ++ outcome.errors }

/-- Run the program. Arguments are looked at before anything else. -/
def run [Limits] (world : World) (args : List String) : Outcome :=
  match Invocation.ofArguments args with
  | .error (.help topic) => ⟨topic.help.map .plain, [], .dismissed 0⟩
  | .error (.usage topic e) => ⟨[], (e.lines topic).map .plain, .dismissed 2⟩
  | .ok invocation => invocation.run world

end Deduction.Command
