import Precedence.Location

/-!
# Diagnostics

What is reported to the author of a text: a kind of problem, the place of it and a
message, written in one line as `place: kind error: message`.
-/

namespace Precedence

/-- The stages that report a problem. -/
inductive Diagnostic.Kind where
  /-- A character that begins no token. -/
  | lexical
  /-- A sequence of tokens that the grammar does not derive. -/
  | grammatical
  /-- A level table that cannot be used. -/
  | configuration
  /-- An operation without a result. -/
  | evaluation
deriving DecidableEq

/-- The name of a kind in a report. -/
def Diagnostic.Kind.name : Diagnostic.Kind → String
  | lexical => "lexical"
  | grammatical => "syntax"
  | configuration => "configuration"
  | evaluation => "evaluation"

/-- A problem in a text, with the place of it when there is one. -/
structure Diagnostic where
  kind : Diagnostic.Kind
  location : Option Location
  message : String

namespace Diagnostic

/-- The place in front of a report. -/
def place (location : Option Location) : String :=
  match location with
  | some location => location.render
  | none => Location.unknownName

/-- The report of a diagnostic, in one line. -/
def report (diagnostic : Diagnostic) : String :=
  place diagnostic.location ++ ": " ++ diagnostic.kind.name ++ " error: " ++
    diagnostic.message

end Diagnostic
end Precedence
