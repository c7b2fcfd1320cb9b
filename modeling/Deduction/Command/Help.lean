import Deduction.Command.Arguments

/-!
Help texts and usage messages.
-/

namespace Deduction.Command

def Topic.title : Topic → String
  | .program => "natded"
  | .check => "natded check"
  | .parse => "natded parse"
  | .examples => "natded examples"

def Topic.usage : Topic → List String
  | .program => [
      "usage: natded [-h] [--log-level \x7bDEBUG,INFO,WARNING,ERROR,CRITICAL\x7d]",
      "              [--ascii | --no-ascii]",
      "              \x7bcheck,parse,examples\x7d ..."]
  | .check => ["usage: natded check [-h] [--json] FILE [FILE ...]"]
  | .parse => ["usage: natded parse [-h] [--json] formula"]
  | .examples => ["usage: natded examples [-h] [NAME ...]"]

def Topic.details : Topic → List String
  | .program => [
      "Check propositional Natural Deduction derivations",
      "",
      "positional arguments:",
      "  \x7bcheck,parse,examples\x7d",
      "                        Available commands",
      "    check               Replay derivation scripts (JSON) through the kernel",
      "                        and check their goals.",
      "    parse               Parse a formula and print it back in canonical form.",
      "    examples            Build the bundled textbook derivations.",
      "",
      "options:",
      "  -h, --help            show this help message and exit",
      "  --log-level \x7bDEBUG,INFO,WARNING,ERROR,CRITICAL\x7d",
      "                        Logging level (default: NATDED_LOG_LEVEL or WARNING).",
      "  --ascii, --no-ascii   Print formulas with & | -> instead of ∧ ∨ → (default:",
      "                        NATDED_ASCII)."]
  | .check => [
      "positional arguments:",
      "  FILE        Derivation script .json file(s).",
      "",
      "options:",
      "  -h, --help  show this help message and exit",
      "  --json      Print a machine-readable JSON report."]
  | .parse => [
      "positional arguments:",
      "  formula     Formula text, e.g. \"p & q -> q & p\".",
      "",
      "options:",
      "  -h, --help  show this help message and exit",
      "  --json      Print the formula as JSON."]
  | .examples => [
      "positional arguments:",
      "  NAME        Examples to build (default: all). One of:",
      "              hypothetical_syllogism, conj_commutes, disj_commutes, weakening,",
      "              currying, distribution.",
      "",
      "options:",
      "  -h, --help  show this help message and exit"]

def Topic.help (topic : Topic) : List String := topic.usage ++ "" :: topic.details

/-- The lines that tell what is wrong with the arguments of a topic. -/
def UsageError.lines (topic : Topic) (e : UsageError) : List String :=
  topic.usage ++ [s!"{topic.title}: error: {e.message}"]

end Deduction.Command
