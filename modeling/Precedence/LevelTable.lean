import Precedence.Diagnostic
import Precedence.Node.Basic
import Precedence.Token.Lexer
import Precedence.Value.Hash
import Precedence.Value.Literal

/-!
# Level tables

A level table says which operators an expression grammar has, which operation each of
them stands for and how it groups. The levels are listed loosest binding first.

A table is written as a mapping with a list `levels`, each item of which is a mapping with
an `operator`, the name of a `node` class and perhaps an `associativity`. The items are
checked one by one, and of an item the operator first: it has to be what the lexer makes
one operator token of, and it must not occur before. The first fault is reported.
-/

namespace Precedence

/-- How operands group between operators of one level. -/
inductive Associativity where
  | left
  | right
deriving DecidableEq

namespace Associativity

/-- The name of an associativity. -/
def name : Associativity → String
  | left => "left"
  | right => "right"

/-- The associativity with a given name. -/
def ofName? (name : String) : Option Associativity :=
  if name = left.name then some left
  else if name = right.name then some right
  else none

/-- The associativity that an unchecked name stands for: to the right unless left. -/
def ofName (name : String) : Associativity :=
  if name = left.name then left else right

end Associativity

/-- An operator with its operation and its associativity. -/
structure OperatorLevel where
  operator : String
  operation : Operation
  associativity : Associativity
deriving DecidableEq

/-- The operators of a grammar, loosest binding first. -/
abbrev LevelTable := List OperatorLevel

namespace LevelTable

/-- The table that is used where no other one is given. -/
def default : LevelTable :=
  [ ⟨"+", .addition, .left⟩,
    ⟨"-", .subtraction, .left⟩,
    ⟨"*", .multiplication, .left⟩,
    ⟨"/", .division, .left⟩,
    ⟨"^", .exponentiation, .right⟩ ]

/-- What makes a document unfit as a level table. Items are counted from zero. -/
inductive Fault where
  /-- There is no list of levels. -/
  | noLevels
  /-- An item is not a mapping. -/
  | notAMapping (index : Nat)
  /-- The operator of an item is not the text of one operator token. -/
  | invalidOperator (index : Nat) (operator : Datum)
  /-- An operator occurs a second time. -/
  | duplicateOperator (operator : String)
  /-- The node class of an item is not one of the five operations. -/
  | unknownNode (index : Nat) (node : Datum)
  /-- The associativity of an item is neither left nor right. -/
  | invalidAssociativity (index : Nat)

/-- The wording of a fault. -/
def Fault.message : Fault → String
  | noLevels => "level table must have a 'levels' list"
  | notAMapping index => "level " ++ toString index ++ " is not a mapping"
  | invalidOperator index operator =>
      "level " ++ toString index ++ ": invalid operator: " ++ operator.literal
  | duplicateOperator operator =>
      "operator " ++ operator ++ " appears in more than one level"
  | unknownNode index node =>
      "level " ++ toString index ++ ": unknown node: " ++ node.literal
  | invalidAssociativity index =>
      "level " ++ toString index ++ ": associativity must be '" ++
        Associativity.left.name ++ "' or '" ++ Associativity.right.name ++ "'"

/-- What ends the writing of the message first, which may show a value of the document. -/
def Fault.writeError? (depth : Nat) : Fault → Option Value.WriteError
  | invalidOperator _ operator => operator.writeError? depth
  | unknownNode _ node => node.writeError? depth
  | _ => none

/-- The ways in which a document does not become a table. -/
inductive Error where
  /-- The document is unfit. -/
  | unfit (fault : Fault)
  /-- A node class is looked up by a list or a mapping, which cannot be looked up. -/
  | unhashable (kind : String)

/-- The wording for a value that cannot be looked up. -/
def unhashableMessage (kind : String) : String :=
  "unhashable type: '" ++ kind ++ "'"

/-- The file name that operators are lexed under when they are checked. -/
def operatorFile : String := "<operator>"

/-- Whether a text is an operator: its only printable token is an operator token. -/
def isOperator (text : String) : Bool :=
  match Lexer.printableTokens operatorFile text with
  | .ok [token] => token.tag == Tag.operator
  | _ => false

/-- The operator of an item. -/
def operatorOf (index : Nat) (item : Datum) : Except Fault String :=
  match (item.field? "operator").getD .null with
  | .text operator =>
      if isOperator operator then .ok operator
      else .error (.invalidOperator index (.text operator))
  | value => .error (.invalidOperator index value)

/-- The operation of an item. -/
def operationOf (index : Nat) (item : Datum) : Except Error Operation :=
  match (item.field? "node").getD .null with
  | .text name =>
      match Operation.ofName? name with
      | some operation => .ok operation
      | none => .error (.unfit (.unknownNode index (.text name)))
  | value =>
      match value.hashKey with
      | .ok _ => .error (.unfit (.unknownNode index value))
      | .error kind => .error (.unhashable kind)

/-- The associativity of an item: to the left where none is given. -/
def associativityOf (index : Nat) (item : Datum) : Except Fault Associativity :=
  match item.field? "associativity" with
  | none => .ok .left
  | some (.text name) =>
      match Associativity.ofName? name with
      | some associativity => .ok associativity
      | none => .error (.invalidAssociativity index)
  | some _ => .error (.invalidAssociativity index)

/-- The level of an item, given the operators of all items before it. -/
def levelOf (seen : List String) (index : Nat) (item : Datum) :
    Except Error OperatorLevel := do
  match item with
  | .mapping _ =>
      let operator ← (operatorOf index item).mapError .unfit
      if seen.contains operator then
        .error (.unfit (.duplicateOperator operator))
      else
        let operation ← operationOf index item
        let associativity ← (associativityOf index item).mapError .unfit
        return ⟨operator, operation, associativity⟩
  | _ => .error (.unfit (.notAMapping index))

/-- The levels of all items, given the operators and the number of those before them. -/
def levelsFrom (seen : List String) (index : Nat) :
    List Datum → Except Error LevelTable
  | [] => .ok []
  | item :: items => do
      let level ← levelOf seen index item
      let levels ← levelsFrom (level.operator :: seen) (index + 1) items
      return level :: levels

/-- The table that a document describes. -/
def ofDocument (document : Datum) : Except Error LevelTable :=
  match document.field? "levels" with
  | some (.list items) => levelsFrom [] 0 items
  | _ => .error (.unfit .noLevels)

end LevelTable
end Precedence
