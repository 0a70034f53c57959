import Precedence.CommandLine.Session
import Precedence.Document.Reading

/-!
# The command

The command line of the calculator. All that is decided is decided in
`Precedence.CommandLine`; here the files, the reader of documents and the standard streams
are attached.
-/

namespace Precedence
namespace CommandLine

/-- The reason why a file was not read. -/
def openError : IO.Error → OpenError
  | .inappropriateType _ _ details =>
      if details = OpenError.isDirectory.message then .isDirectory else .notDirectory
  | .invalidArgument _ _ details =>
      if details = OpenError.nameTooLong.message then .nameTooLong else .missing
  | _ => .missing

/-- The calls that may be open at once. -/
def recursionLimit : Nat := 1000

/-- The calls that are open where a message about a table is written. -/
def openCalls : Nat := 4

/-- The environment of a session, given what opening a file gave. -/
def environmentOf (opened : Except OpenError String) : Environment where
  openFile := fun _ => opened
  readDocument := Document.read
  writingDepth := recursionLimit - openCalls

/-- Read the table of a command line, if one is asked for. -/
def readTable (options : Options) : IO (Except OpenError String) := do
  match options.table with
  | .standard | .nowhere => return .error .missing
  | .file path =>
      try
        return .ok (← IO.FS.readFile path)
      catch error =>
        return .error (openError error)

/-- Write a transcript to the standard streams. -/
def writeTranscript (transcript : Transcript) : IO Unit := do
  IO.print transcript.output
  IO.eprint transcript.errors

/-- Write a transcript and give the ending as an exit code. -/
def conclude (transcript : Transcript) (ending : Ending) : IO UInt32 := do
  writeTranscript transcript
  match ending with
  | .status code => return code.toUInt32
  | .exit code => return code.toUInt32
  | .breakdown cause =>
      IO.eprintln cause.message
      return 1

end CommandLine
end Precedence

open Precedence.CommandLine in
/-- Run the command. -/
def main (words : List String) : IO UInt32 := do
  match Options.ofWords words with
  | .error stop =>
      let (transcript, ending) := stop.conclusion
      conclude transcript ending
  | .ok options =>
      let opened ← readTable options
      let input ← if options.expressions.isEmpty then (← IO.getStdin).readToEnd else pure ""
      let (transcript, ending) := session options (environmentOf opened) input
      conclude transcript ending
