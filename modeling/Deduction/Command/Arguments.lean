import Deduction.Log
import Deduction.Text.Digit
import Deduction.Text.LetterCase
import Deduction.Text.Quoted

/-!
Command-line arguments.

The program and each of its commands take options and operands of their own. An option may be
shortened as long as it stays unambiguous, and its value may follow an equals sign. After `--`
everything is an operand. The operands of a command are the first run of arguments between its
options; later ones are not recognized.
-/

namespace Deduction.Command

inductive Topic where
  | program
  | check
  | parse
  | examples
  deriving DecidableEq, Repr

inductive Switch where
  | help
  | level
  | ascii (on : Bool)
  | json
  deriving DecidableEq, Repr

/-- The options of a topic, in the order in which they are listed. -/
def Topic.switches : Topic → List (String × Switch)
  | .program => [("-h", .help), ("--help", .help), ("--log-level", .level), ("--ascii", .ascii true),
      ("--no-ascii", .ascii false)]
  | .check => [("-h", .help), ("--help", .help), ("--json", .json)]
  | .parse => [("-h", .help), ("--help", .help), ("--json", .json)]
  | .examples => [("-h", .help), ("--help", .help)]

def Switch.title : Switch → String
  | .help => "-h/--help"
  | .level => "--log-level"
  | .ascii _ => "--ascii/--no-ascii"
  | .json => "--json"

def commands : List (String × Topic) :=
  [("check", .check), ("parse", .parse), ("examples", .examples)]

inductive UsageError where
  | ambiguous (option : String) (candidates : List String)
  | unwantedValue (switch : Switch) (value : String)
  | missingValue (switch : Switch)
  | invalidLevel (value : String)
  | invalidCommand (name : String)
  | missingOperand (name : String)
  | unrecognized (arguments : List String)
  deriving DecidableEq, Repr

def choices (names : List String) : String :=
  ", ".intercalate (names.map fun (name : String) => Text.quoted name)

def UsageError.message : UsageError → String
  | .ambiguous option candidates =>
      s!"ambiguous option: {option} could match " ++ ", ".intercalate candidates
  | .unwantedValue switch value =>
      s!"argument {switch.title}: ignored explicit argument {Text.quoted value}"
  | .missingValue switch => s!"argument {switch.title}: expected one argument"
  | .invalidLevel value =>
      s!"argument {Switch.level.title}: invalid choice: {Text.quoted value} (choose from "
        ++ choices (LogLevel.all.map LogLevel.name) ++ ")"
  | .invalidCommand name =>
      s!"argument command: invalid choice: {Text.quoted name} (choose from "
        ++ choices (commands.map Prod.fst) ++ ")"
  | .missingOperand name => "the following arguments are required: " ++ name
  | .unrecognized arguments => "unrecognized arguments: " ++ " ".intercalate arguments

/-! ### Single arguments -/

inductive Word.Kind where
  /-- The argument `--`, after which there are no options. -/
  | separator
  | operand
  | switch (switch : Switch) (value : Option String)
  | unknown
  deriving DecidableEq, Repr

structure Word where
  text : String
  kind : Word.Kind
  deriving DecidableEq, Repr

def splitValue (arg : String) : String × Option String :=
  match arg.toList.span (· != '=') with
  | (name, _ :: value) => (String.ofList name, some (String.ofList value))
  | (_, []) => (arg, none)

/-- Whether some characters are a minus sign and digits, with a point before the last of them. -/
def isNegative : List Char → Bool
  | '-' :: digits =>
      match digits.span Text.isDigit with
      | (whole, []) => !whole.isEmpty
      | (_, '.' :: fraction) => !fraction.isEmpty && fraction.all Text.isDigit
      | _ => false
  | _ => false

/-- Negative numbers are operands, not options. A line may end after one. -/
def isNegativeNumber (arg : String) : Bool :=
  let cs := arg.toList
  isNegative cs || cs.getLast? == some '\n' && isNegative cs.dropLast

/-- What is left of the text attached to a short option after the short options it is made of.
There is nothing left if it is made of them alone. -/
def unattached? (topic : Topic) : List Char → Option (List Char)
  | [] => none
  | c :: rest =>
      if topic.switches.any fun s => s.1.toList == ['-', c] then unattached? topic rest
      else some (c :: rest)

/-- The value that is given to an option by some text behind it. Options with one dash take no
value, but other such options may follow. -/
def attachedValue (topic : Topic) (name : String) (value : List Char) : Option String :=
  if name.startsWith "--" || value.isEmpty then some (String.ofList value)
  else (unattached? topic value).map String.ofList

/-- The options of a topic that an argument may be short for, each with the value it is given. -/
def candidates (topic : Topic) (arg : String) : List (String × Switch × Option String) :=
  if arg.startsWith "--" then
    let (name, value) := splitValue arg
    (topic.switches.filter fun s => s.1.startsWith name).map fun s => (s.1, s.2, value)
  else
    let (short, rest) := arg.toList.splitAt 2
    (topic.switches.filter fun s => s.1.toList == short).map fun s =>
      (s.1, s.2, attachedValue topic s.1 rest)

/-- Tell what an argument is. Whatever holds a space and is short for no option is an operand. -/
def classify (topic : Topic) (arg : String) : Except UsageError Word.Kind :=
  if !arg.startsWith "-" || arg == "-" then return .operand
  else
    let (name, value) := splitValue arg
    match topic.switches.lookup name with
    | some switch => return .switch switch (value.bind fun v => attachedValue topic name v.toList)
    | none =>
        match candidates topic arg with
        | [(_, switch, value)] => return .switch switch value
        | [] =>
            if isNegativeNumber arg || arg.toList.contains ' ' then return .operand
            else return .unknown
        | several => throw (.ambiguous arg (several.map Prod.fst))

def classifyAll (topic : Topic) : List String → Except UsageError (List Word)
  | [] => return []
  | "--" :: rest => return ⟨"--", .separator⟩ :: rest.map fun arg => ⟨arg, .operand⟩
  | arg :: rest => do
      let kind ← classify topic arg
      let words ← classifyAll topic rest
      return ⟨arg, kind⟩ :: words

/-! ### Options -/

structure Options where
  level : Option LogLevel
  ascii : Option Bool
  json : Bool
  deriving DecidableEq, Repr

/-- Why arguments lead to no invocation: help is asked for, or they are wrong. -/
inductive Stop where
  | help (topic : Topic)
  | usage (topic : Topic) (error : UsageError)
  deriving DecidableEq, Repr

/-- Set the level to the one with the given name, in whatever case. -/
def Options.setLevel (o : Options) (topic : Topic) (value : String) : Except Stop Options :=
  let name := String.ofList (Text.toUpperCase value.toList)
  match LogLevel.ofName? name with
  | some level => .ok { o with level := some level }
  | none => .error (.usage topic (.invalidLevel name))

/-- Apply an option. Only the level takes a value, and `--` attached to it is none. -/
def Options.apply (o : Options) (topic : Topic) :
    Switch → Option String → Except Stop Options
  | .level, some "--" => .ok { o with level := none }
  | .level, some value => o.setLevel topic value
  | .level, none => .error (.usage topic (.missingValue .level))
  | switch, some value => .error (.usage topic (.unwantedValue switch value))
  | .help, none => .error (.help topic)
  | .ascii on, none => .ok { o with ascii := some on }
  | .json, none => .ok { o with json := true }

/-! ### Operands -/

inductive Arity where
  | one
  | atLeastOne
  | any
  /-- An operand and everything after it. -/
  | command
  deriving DecidableEq, Repr

def Topic.arity : Topic → Arity
  | .program => .command
  | .check => .atLeastOne
  | .parse => .one
  | .examples => .any

def Word.isSeparator (w : Word) : Bool := w.kind = .separator

def Word.isOperand (w : Word) : Bool := w.kind = .operand

def Word.isPlain (w : Word) : Bool := w.isSeparator || w.isOperand

def wordTexts (words : List Word) : List String := words.map Word.text

/-- The operands in a run of arguments that are no options, and the arguments of the run that are
left over. -/
def Arity.take (arity : Arity) (run : List Word) : Option (List String) × List String :=
  let operands := run.filter Word.isOperand
  match arity with
  | .any => (some (wordTexts operands), [])
  | .one =>
      match run.dropWhile Word.isSeparator with
      | [] => (none, wordTexts run)
      | word :: rest => (some [word.text], wordTexts (rest.dropWhile Word.isSeparator))
  | _ => if operands.isEmpty then (none, wordTexts run) else (some (wordTexts operands), [])

/-! ### Lists of arguments -/

structure Found where
  options : Options
  operands : Option (List String)
  unrecognized : List String
  deriving DecidableEq, Repr

def Found.empty : Found := ⟨⟨none, none, false⟩, none, []⟩

def Found.reject (found : Found) (arguments : List String) : Found :=
  { found with unrecognized := found.unrecognized ++ arguments }

/-- Go through arguments from left to right. The first operand of the program is a command, which
takes everything after it. -/
def scan (topic : Topic) (words : List Word) (found : Found) : Except Stop Found :=
  match words with
  | [] =>
      let operands := if topic.arity = .any then some (found.operands.getD []) else found.operands
      .ok { found with operands }
  | word :: rest =>
      match word.kind, rest with
      | .unknown, rest => scan topic rest (found.reject [word.text])
      | .switch .level none, ⟨value, .operand⟩ :: rest => do
          let options ← found.options.setLevel topic value
          scan topic rest { found with options }
      | .switch switch value, rest => do
          let options ← found.options.apply topic switch value
          scan topic rest { found with options }
      | _, rest =>
          let run := word :: rest.takeWhile Word.isPlain
          let later := rest.dropWhile Word.isPlain
          if found.operands.isSome then scan topic later (found.reject (wordTexts run))
          else if topic.arity = .command && run.any Word.isOperand then
            .ok { found with operands := some (wordTexts (run ++ later)) }
          else
            let (operands, left) := topic.arity.take run
            scan topic later { found.reject left with operands }
termination_by words.length
decreasing_by
  · exact Nat.lt_succ_self _
  · exact Nat.lt_succ_of_lt (Nat.lt_succ_self _)
  · exact Nat.lt_succ_self _
  · exact Nat.lt_succ_of_le (List.dropWhile_sublist _).length_le
  · exact Nat.lt_succ_of_le (List.dropWhile_sublist _).length_le

/-- The operand that a topic cannot do without. -/
def Topic.required? : Topic → Option String
  | .check => some "FILE"
  | .parse => some "formula"
  | _ => none

def read (topic : Topic) (args : List String) : Except Stop Found :=
  match classifyAll topic args with
  | .error e => .error (.usage topic e)
  | .ok words => do
      let found ← scan topic words .empty
      match topic.required?, found.operands with
      | some name, none => throw (.usage topic (.missingOperand name))
      | _, _ => return found

/-! ### Invocations -/

inductive Task where
  | check (files : List String) (json : Bool)
  | parse (text : String) (json : Bool)
  | examples (names : List String)
  | help
  deriving DecidableEq, Repr

structure Invocation where
  level : Option LogLevel
  ascii : Option Bool
  task : Task
  deriving DecidableEq, Repr

def Topic.task (topic : Topic) (options : Options) (operands : List String) : Task :=
  match topic with
  | .program => .help
  | .check => .check operands options.json
  | .parse => .parse (operands.headD "") options.json
  | .examples => .examples operands

def Invocation.ofArguments (args : List String) : Except Stop Invocation := do
  let own ← read .program args
  let invocation (task : Task) : Invocation := ⟨own.options.level, own.options.ascii, task⟩
  match own.operands with
  | none => finish own.unrecognized (invocation .help)
  | some [] => finish own.unrecognized (invocation .help)
  | some (name :: args) =>
      match commands.lookup name with
      | none => throw (.usage .program (.invalidCommand name))
      | some topic =>
          let found ← read topic args
          let task := topic.task found.options (found.operands.getD [])
          finish (own.unrecognized ++ found.unrecognized) (invocation task)
where
  finish (unrecognized : List String) (invocation : Invocation) : Except Stop Invocation :=
    if unrecognized.isEmpty then .ok invocation
    else .error (.usage .program (.unrecognized unrecognized))

end Deduction.Command
