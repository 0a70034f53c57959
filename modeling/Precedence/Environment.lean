import Precedence.Value.Basic

/-!
# The environment of a program

What a program finds where it is run, and does not decide itself: the texts of files, what
the reader of documents makes of a text, and how many values that stand in each other can
be written before the limit on recursion is met.
-/

namespace Precedence

/-- Why a file cannot even be looked for. -/
inductive PathFault where
  /-- A file is asked for, and no path is given. -/
  | absent
  /-- The path has the zero character in it, which ends every path. -/
  | zeroCharacter
deriving DecidableEq

/-- The wording of a fault of a path. -/
def PathFault.message : PathFault → String
  | absent => "expected str, bytes or os.PathLike object, not list"
  | zeroCharacter => "embedded null byte"

/-- The fault of a path that is given, if it has one. -/
def PathFault.ofPath? (path : String) : Option PathFault :=
  if path.contains '\x00' then some zeroCharacter else none

/-- Why the text of a file is not available. -/
inductive OpenError where
  | missing
  | isDirectory
  | notDirectory
  | nameTooLong
deriving DecidableEq

/-- The wording of a reason. -/
def OpenError.message : OpenError → String
  | missing => "No such file or directory"
  | isDirectory => "Is a directory"
  | notDirectory => "Not a directory"
  | nameTooLong => "File name too long"

/-- Why the text of a file has no value as a document. -/
inductive ReadError where
  /-- The text is not the text of a document, for a reason that the reader tells. -/
  | malformed (details : String)
  /-- The reader is ended by an error of another class. -/
  | other (className message : String)

/-- What a program finds where it is run. -/
structure Environment where
  /-- The text of the file at a path. -/
  openFile : String → Except OpenError String
  /-- The value of the text of a document. -/
  readDocument : String → Except ReadError Datum
  /-- The number of values that may stand in each other where one is written. -/
  writingDepth : Nat

/-- An environment without any files. -/
def Environment.bare : Environment where
  openFile := fun _ => .error .missing
  readDocument := fun _ => .error (.malformed "")
  writingDepth := 0

end Precedence
