import Precedence.Arithmetic
import Precedence.CommandLine.Usage
import Precedence.Node.Printer

/-!
# Sessions

A session answers the expressions of a command line, one after the other: it writes the
tree or the value of each to the standard output. What is wrong with an expression is
reported on the standard error stream, and the session goes on. Where no expression is
given, each line of the standard input that is not blank is one.

Every expression has a file name of its own: `<arg0>`, `<arg1>` and so on, or `<line1>`,
`<line2>` and so on, where blank lines count. A session only appends to what it has
written, so its transcript is that of the single expressions, put together.
-/

namespace Precedence

namespace CommandLine

/-- What has been written to the standard output and to the standard error stream. -/
structure Transcript where
  output : String
  errors : String
deriving DecidableEq

namespace Transcript

/-- Nothing has been written. -/
def empty : Transcript := ⟨"", ""⟩

/-- What one part of a session and then another one writes. -/
instance : Append Transcript :=
  ⟨fun first second => ⟨first.output ++ second.output, first.errors ++ second.errors⟩⟩

/-- A text on the standard output. -/
def ofOutput (text : String) : Transcript := ⟨text, ""⟩

/-- A text on the standard error stream. -/
def ofErrors (text : String) : Transcript := ⟨"", text⟩

/-- A line on the standard error stream. -/
def ofReport (report : String) : Transcript := ofErrors (report ++ "\n")

end Transcript

/-- How a session ends. -/
inductive Ending where
  /-- It came to its end; the status is 1 if something was reported. -/
  | status (code : Nat)
  /-- It was not begun. -/
  | exit (code : Nat)
  /-- It was ended by an error that is not about the text. -/
  | breakdown (cause : Breakdown)

/-- An expression as it is given, under the name of its own. -/
structure Source where
  name : String
  text : String

namespace Source

/-- The sources of the expressions on the command line, counted from a number on. -/
def ofArguments (count : Nat) : List String → List Source
  | [] => []
  | text :: texts =>
      ⟨"<arg" ++ toString count ++ ">", text⟩ :: ofArguments (count + 1) texts

/-- The sources of the lines that are not blank, counted from a number on. -/
def ofLines (count : Nat) : List String → List Source
  | [] => []
  | line :: lines =>
      let sources := ofLines (count + 1) lines
      if Text.allBlank line then sources
      else ⟨"<line" ++ toString count ++ ">", line⟩ :: sources

/-- The sources of a session: the expressions or else the lines of the input. -/
def ofOptions (options : Options) (input : String) : List Source :=
  if options.expressions.isEmpty then
    ofLines 1 (input.splitOn "\n")
  else
    ofArguments 0 options.expressions

end Source

namespace Log

/-- The line about a table that was loaded. -/
def loaded (table : LevelTable) (path : String) : String :=
  "levels.arithmetic: loaded " ++ toString table.length ++ " operator levels from " ++ path

/-- The line about an expression that is going to be parsed. -/
def parsing (source : Source) : String :=
  "levels.calculator: parsing " ++ source.name

/-- The line about a grammar that was composed. -/
def composed (table : LevelTable) : String :=
  "levels.composition: composed " ++ toString (Arithmetic.levelCount table) ++ " levels"

/-- A line is written where logging is asked for. -/
def write (options : Options) (line : String) : Transcript :=
  if options.isVerbose then .ofReport line else .empty

end Log

/-- What is written for a tree: its value in a line of its own, or the tree. -/
def answer (options : Options) (tree : Node) : Except Problem String :=
  if options.evaluates then do
    let value ← Arithmetic.evaluate tree
    match Numeral.write value with
    | .ok digits => .ok (digits ++ "\n")
    | .error error => .error (.breakdown (.numeral error))
  else
    .ok tree.render

/-- What is logged for a source, and the answer to it. A margin of blanks is ignored. -/
def process (options : Options) (table : LevelTable) (source : Source) :
    Transcript × Except Problem String :=
  let parsing := Log.write options (Log.parsing source)
  match Arithmetic.tokens source.name (Text.strip source.text) with
  | .error problem => (parsing, .error problem)
  | .ok tokens =>
      (parsing ++ Log.write options (Log.composed table), do
        let tree ← Arithmetic.parse table source.name tokens
        answer options tree)

/--
What is written for a source, and whether it has been answered; a breakdown ends the
session.
-/
def perform (options : Options) (table : LevelTable) (source : Source) :
    Transcript × Except Breakdown Bool :=
  match process options table source with
  | (log, .ok text) => (log ++ .ofOutput text, .ok true)
  | (log, .error (.reported diagnostic)) => (log ++ .ofReport diagnostic.report, .ok false)
  | (log, .error (.breakdown cause)) => (log, .error cause)

/-- What is written for all sources, and whether all have been answered. -/
def performAll (options : Options) (table : LevelTable) :
    List Source → Transcript × Except Breakdown Bool
  | [] => (.empty, .ok true)
  | source :: sources =>
      match perform options table source with
      | (written, .error cause) => (written, .error cause)
      | (written, .ok isAnswered) =>
          let (more, outcome) := performAll options table sources
          (written ++ more, outcome.map (isAnswered && ·))

/-- The ending of a session, given whether all sources have been answered. -/
def Ending.ofOutcome : Except Breakdown Bool → Ending
  | .ok isAnswered => .status (if isAnswered then 0 else 1)
  | .error cause => .breakdown cause

/-- The table of a session and what is logged about it, or the ending without a table. -/
def loadTable (options : Options) (environment : Environment) :
    Except (Transcript × Ending) (Transcript × LevelTable) :=
  match options.table with
  | .standard => .ok (.empty, LevelTable.default)
  | .nowhere => .error (.empty, .breakdown (.path .absent))
  | .file path =>
      match Arithmetic.tableOfFile environment path with
      | .ok table => .ok (Log.write options (Log.loaded table path), table)
      | .error (.reported diagnostic) => .error (.ofReport diagnostic.report, .status 1)
      | .error (.breakdown cause) => .error (.empty, .breakdown cause)

/-- A session for some options, given the environment and the standard input. -/
def session (options : Options) (environment : Environment) (input : String) :
    Transcript × Ending :=
  match loadTable options environment with
  | .error ended => ended
  | .ok (log, table) =>
      let (written, outcome) := performAll options table (Source.ofOptions options input)
      (log ++ written, Ending.ofOutcome outcome)

/-- What is written, and the ending, when a command line is not run. -/
def Stop.conclusion : Stop → Transcript × Ending
  | help => (.ofOutput CommandLine.help, .exit 0)
  | misuse error => (.ofErrors (refusal error), .exit 2)

/-- The whole command: words, environment and the standard input. -/
def run (words : List String) (environment : Environment) (input : String) :
    Transcript × Ending :=
  match Options.ofWords words with
  | .ok options => session options environment input
  | .error stop => stop.conclusion

end CommandLine
end Precedence
