import Deduction.Text.Basic

/-!
Log entries. The parts of the library return them with their results.
-/

namespace Deduction

inductive LogLevel where
  | debug
  | info
  | warning
  | error
  | critical
  deriving DecidableEq, Repr

namespace LogLevel

def all : List LogLevel := [.debug, .info, .warning, .error, .critical]

def name : LogLevel → String
  | .debug => "DEBUG"
  | .info => "INFO"
  | .warning => "WARNING"
  | .error => "ERROR"
  | .critical => "CRITICAL"

def rank : LogLevel → Nat
  | .debug => 0
  | .info => 1
  | .warning => 2
  | .error => 3
  | .critical => 4

def ofName? (name : String) : Option LogLevel := all.find? fun level => level.name == name

end LogLevel

structure LogEntry where
  level : LogLevel
  source : String
  message : Text
  deriving DecidableEq, Repr

def LogEntry.line (e : LogEntry) : Text := s!"{e.level.name} {e.source}: " ++ e.message

end Deduction
