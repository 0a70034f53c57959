import Precedence.Environment
import Precedence.Evaluation
import Precedence.Level
import Precedence.LevelTable

/-!
# Arithmetic expressions

The expression grammar of a level table: a level for each operator of the table, then
integers, then expressions in parentheses, which enter the whole grammar again. Integers
and parentheses bind tighter than any operator.

Parsing has three outcomes: a tree, a diagnostic, or an error that is not about the text,
such as a numeral with too many digits. Only parentheses open the grammar again, so only
they count towards the limit on nesting; when it is reached the diagnostic names the
beginning of the input.
-/

namespace Precedence

/-- What ends a reading of a text or a table without a result or a diagnostic. -/
inductive Breakdown where
  /-- The grammar was misapplied. -/
  | grammar (fault : Fault Numeral.Error)
  /-- A numeral cannot be read, or a number not be written. -/
  | numeral (error : Numeral.Error)
  /-- The reader of documents was ended by an error of some class. -/
  | document (className message : String)
  /-- A file cannot even be looked for. -/
  | path (fault : PathFault)
  /-- A document holds a list or a mapping where one cannot be looked up. -/
  | unhashable (kind : String)
  /-- Too many values stand in each other to be written. -/
  | nesting
  /-- A tree has nodes that denote nothing. -/
  | meaningless

/-- The wording of a breakdown. -/
def Breakdown.message : Breakdown → String
  | grammar fault => fault.message Numeral.Error.message
  | numeral error => error.message
  | document _ message => message
  | path fault => fault.message
  | unhashable kind => LevelTable.unhashableMessage kind
  | nesting => "maximum recursion depth exceeded while getting the repr of an object"
  | meaningless => ""

/-- The ways not to have a result. -/
inductive Problem where
  /-- The author of the text is told. -/
  | reported (diagnostic : Diagnostic)
  /-- The program ends. -/
  | breakdown (cause : Breakdown)

namespace Arithmetic

/-- Actions only compute: they give a value or raise a fault. -/
abbrev Action := Except (Fault Numeral.Error)

/-- Parsers of expressions. The whole grammar is the only forward parser. -/
abbrev ExprParser := Parser Unit Node Action

/-- One reserved token. -/
def keyword (text : String) : ExprParser String :=
  .reserved Tag.reserved text

/-- One operator token. -/
def operator (text : String) : ExprParser String :=
  .reserved Tag.operator text

/-- One integer token. -/
def integer : ExprParser Node :=
  Parser.process (.tag Tag.integer) fun text location =>
    match Numeral.read text with
    | .ok value => .ok (.number value location)
    | .error error => .error (.action error)

/-- The node of an operation; it covers both operands. -/
def combine (operation : Operation) (left right : Node) : Action Node := do
  let location ← Parser.cover left.location right.location
  return .binary (some operation) left right location

/-- An expression in parentheses, or else the tighter levels. -/
def group {ν τ : Type} {ε : Type} {m : Type → Type} [Monad m] : Level.Creator ν τ ε m :=
  fun top next => (Level.required next).map fun next =>
    some ((((Parser.reserved Tag.reserved "(").keepRight top).keepLeft
      (.reserved Tag.reserved ")")).orElse next)

/-- The level of an operator. -/
def operatorLevel (level : OperatorLevel) : Level.Creator Unit Node Numeral.Error Action :=
  match level.associativity with
  | .left => Level.leftAssociative (operator level.operator) (combine level.operation)
  | .right => Level.rightAssociative (operator level.operator) (combine level.operation)

/-- All levels of a table, loosest binding first. -/
def levels (table : LevelTable) : List (Level.Creator Unit Node Numeral.Error Action) :=
  table.map operatorLevel ++ [Level.orNext integer, group]

/-- The number of levels that a grammar has for a table. -/
def levelCount (table : LevelTable) : Nat :=
  table.length + 2

/-- The grammar of a table. -/
def grammar (table : LevelTable) : Action (Grammar Unit Node Action) :=
  Level.composeWithDefault () (levels table)

/-- The number of parentheses that may be open at once. -/
def nestingLimit : Nat := 100

/-- Run the phrase of an expression over a whole list of tokens, with a limit on nesting. -/
def run (limit : Nat) (table : LevelTable) (reader : Reader) : Action (Result Node) :=
  match grammar table with
  | .ok grammar => Parser.run grammar.definitions limit (.phrase grammar.start) reader
  | .error fault => .error fault

/-- The problem of a run that was ended by a fault. -/
def problemOf (reader : Reader) (fault : Fault Numeral.Error) : Problem :=
  match fault with
  | .nestedTooDeeply =>
      .reported ⟨.grammatical, some reader.location, fault.message Numeral.Error.message⟩
  | .action error => .breakdown (.numeral error)
  | fault => .breakdown (.grammar fault)

/-- The tree of a list of tokens, with a limit on nesting. -/
def parseWithin (limit : Nat) (table : LevelTable) (fileName : String)
    (tokens : List Token) : Except Problem Node :=
  let reader := Reader.ofTokens fileName tokens
  match run limit table reader with
  | .ok (.success _ tree _) => .ok tree
  | .ok (.failure location message) =>
      .error (.reported ⟨.grammatical, some location, message⟩)
  | .error fault => .error (problemOf reader fault)

/-- The tree of a list of tokens. -/
def parse (table : LevelTable) (fileName : String) (tokens : List Token) :
    Except Problem Node :=
  parseWithin nestingLimit table fileName tokens

/-- The tokens of a text that the grammar sees. -/
def tokens (fileName text : String) : Except Problem (List Token) :=
  (Lexer.printableTokens fileName text).mapError fun error => .reported error.diagnostic

/-- The tree of a text. -/
def parseText (table : LevelTable) (fileName text : String) : Except Problem Node := do
  let tokens ← tokens fileName text
  parse table fileName tokens

/-- The value of a tree. -/
def evaluate (tree : Node) : Except Problem Int :=
  tree.evaluate.mapError fun
    | .divisionByZero location =>
        .reported ⟨.evaluation, some location, Evaluation.divisionMessage⟩
    | .meaningless => .breakdown .meaningless

/-- The value of a text. -/
def evaluateText (table : LevelTable) (fileName text : String) : Except Problem Int := do
  let tree ← parseText table fileName text
  evaluate tree

/-- What a writing that comes to no end does to the program. -/
def breakdownOf : Value.WriteError → Breakdown
  | .tooLong => .numeral .tooLongToWrite
  | .tooDeep => .nesting

/-- The problem of a document that does not become a table. -/
def tableProblem (depth : Nat) (location : Location) : LevelTable.Error → Problem
  | .unfit fault =>
      match fault.writeError? depth with
      | none => .reported ⟨.configuration, some location, fault.message⟩
      | some error => .breakdown (breakdownOf error)
  | .unhashable kind => .breakdown (.unhashable kind)

/--
The table that a document describes, where faults are reported at a location and values can
be written up to a depth.
-/
def tableOfDocument (depth : Nat) (location : Location) (document : Datum) :
    Except Problem LevelTable :=
  (LevelTable.ofDocument document).mapError (tableProblem depth location)

/-- The message about a file that is not available. -/
def unreadableMessage (error : OpenError) : String :=
  "could not read level table: " ++ error.message

/-- The message about a text that is no document. -/
def malformedMessage (details : String) : String :=
  "invalid YAML: " ++ details

/-- The problem of a file at a location that is not read as a document. -/
def documentProblem (location : Location) : ReadError → Problem
  | .malformed details => .reported ⟨.configuration, some location, malformedMessage details⟩
  | .other className message => .breakdown (.document className message)

/-- The table in the file at a path. -/
def tableOfFile (environment : Environment) (path : String) : Except Problem LevelTable := do
  if let some fault := PathFault.ofPath? path then
    throw (.breakdown (.path fault))
  let location := Location.startOf path
  let text ← (environment.openFile path).mapError fun error =>
    .reported ⟨.configuration, some location, unreadableMessage error⟩
  let document ← (environment.readDocument text).mapError (documentProblem location)
  tableOfDocument environment.writingDepth location document

end Arithmetic
end Precedence
