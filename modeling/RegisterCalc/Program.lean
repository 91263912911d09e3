import RegisterCalc.CommandLine
import RegisterCalc.Session.Run

/-!
# The program

The program as a function from its arguments and its input to its output and its exit code, where
neither the input nor the output is a terminal.
-/

namespace RegisterCalc

/-- What the program leaves behind. -/
structure Completion where
  output : List UInt8
  exitCode : Nat

/-- The name and the version of the program. -/
def versionText : String := "regeval 0.1.0\n"

/-- How the program is called. -/
def helpText : String :=
  "Interactive evaluator for C-style expressions over numbered registers\n\n"
    ++ "Usage: regeval [OPTIONS]\n\n"
    ++ "Options:\n"
    ++ "      --no-ast          Do not print the parsed tree before each result\n"
    ++ "      --fold            Constant-fold each statement and print the optimized tree\n"
    ++ "      --color <COLOR>   When to color output: auto, always or never [default: auto]\n"
    ++ "      --plain           Read plain lines from stdin without line editing\n"
    ++ "      --history <FILE>  Load and save line-editing history in this file\n"
    ++ "      --prompt <TEXT>   Prompt shown before each statement [default: \"expr> \"]\n"
    ++ "  -v, --verbose...      Log more (-v info, -vv debug, -vvv trace)\n"
    ++ "  -h, --help            Print help\n"
    ++ "  -V, --version         Print version\n"

namespace Interruption

/-- What is written where arguments end the program. -/
def output : Interruption → String
  | help => helpText
  | version => versionText
  | refused _ => ""

/-- The exit code where arguments end the program. -/
def exitCode : Interruption → Nat
  | help | version => 0
  | refused _ => 2

end Interruption

/-- The exit code of a run. -/
def Run.exitCode (run : Run) : Nat := if run.fault.isSome then 1 else 0

/-- Runs the program. -/
def runProgram (arguments : List String) (input : List UInt8) : Completion :=
  match Options.ofArguments arguments with
  | .error stop => ⟨Text.toBytes stop.output, stop.exitCode⟩
  | .ok options =>
    let run := (Session.new (options.config false)).run none input
    ⟨run.output, run.exitCode⟩

end RegisterCalc
