import Precedence.CommandLine.Options

/-!
# Usage of the command

The text that explains the command, and the text that refuses a command line.
-/

namespace Precedence
namespace CommandLine

/-- The name of the command. -/
def programName : String := "levels-calc"

/-- The synopsis of the command. -/
def usage : String :=
  "usage: " ++ programName ++ " [-h] [--eval] [--levels LEVELS] [--verbose]\n" ++
    "                   [expression ...]\n"

/-- The explanation of the command. -/
def help : String :=
  usage ++
    "\n" ++
    "Parse and evaluate arithmetic expressions\n" ++
    "\n" ++
    "positional arguments:\n" ++
    "  expression       Expressions to parse. If none are given, one expression is\n" ++
    "                   read from each line of standard input.\n" ++
    "\n" ++
    "options:\n" ++
    "  -h, --help       show this help message and exit\n" ++
    "  --eval           Print the value of each expression instead of its tree\n" ++
    "  --levels LEVELS  YAML file with the operator levels to use\n" ++
    "  --verbose        Log debugging information\n"

/-- What is written when a command line is refused. -/
def refusal (misuse : Misuse) : String :=
  usage ++ programName ++ ": error: " ++ misuse.message ++ "\n"

end CommandLine
end Precedence
