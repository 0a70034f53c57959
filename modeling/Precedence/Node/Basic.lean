import Precedence.Location
import Precedence.Number.Numeral
import Precedence.Walk

/-!
# Expression trees

The trees that a parser builds: numbers and the five binary operations, each with the
location that it was read from. Beside these there are nodes of three general classes,
which stand above them in the order of classes: plain nodes, plain expressions, and binary
expressions without an operation. No grammar builds them, but a tree may hold them.
-/

namespace Precedence

/-- The binary operations. -/
inductive Operation where
  | addition
  | subtraction
  | multiplication
  | division
  | exponentiation
deriving DecidableEq

namespace Operation

/-- All operations. -/
def all : List Operation :=
  [addition, subtraction, multiplication, division, exponentiation]

/-- The name of the class of nodes with this operation. -/
def name : Operation → String
  | addition => "Addition"
  | subtraction => "Subtraction"
  | multiplication => "Multiplication"
  | division => "Division"
  | exponentiation => "Exponentiation"

/-- The usual symbol of the operation. -/
def symbol : Operation → String
  | addition => "+"
  | subtraction => "-"
  | multiplication => "*"
  | division => "/"
  | exponentiation => "^"

/-- The operation whose class of nodes has the given name. -/
def ofName? (name : String) : Option Operation :=
  all.find? fun operation => operation.name == name

end Operation

/-- A node of an expression tree. -/
inductive Node where
  /-- A node of no particular class. -/
  | plain (location : Location)
  /-- An expression of no particular class. -/
  | expression (location : Location)
  /-- An integer. -/
  | number (value : Int) (location : Location)
  /-- Two operands; without an operation, a binary expression of no particular class. -/
  | binary (operation : Option Operation) (left right : Node) (location : Location)

namespace Node

/-- The classes of nodes. -/
inductive Class where
  | node
  | expression
  | number
  | binaryExpression
  | operation (kind : Operation)
deriving DecidableEq

namespace Class

/-- The name of a class. -/
def name : Class → String
  | node => "Node"
  | expression => "Expression"
  | number => "Number"
  | binaryExpression => "BinaryExpression"
  | operation kind => kind.name

/-- Whether the nodes of the second class are nodes of the first class, too. -/
def includes : Class → Class → Bool
  | node, _ => true
  | expression, node => false
  | expression, _ => true
  | binaryExpression, binaryExpression => true
  | binaryExpression, operation _ => true
  | c, d => c = d

/-- Classes are values, too. Each of them equals only itself. -/
instance : Objects Class where
  equal := fun c d => c = d
  kindName := fun _ => "type"
  literal := fun c => "<class 'levels.ast." ++ c.name ++ "'>"
  isHashable := fun _ => true

end Class

/-- The class of a binary node. -/
def classOfOperation : Option Operation → Class
  | some operation => .operation operation
  | none => .binaryExpression

/-- The class of a node. -/
def classOf : Node → Class
  | plain _ => .node
  | expression _ => .expression
  | number _ _ => .number
  | binary operation _ _ _ => classOfOperation operation

/-- Where the node was read from. -/
def location : Node → Location
  | plain location => location
  | expression location => location
  | number _ location => location
  | binary _ _ _ location => location

/-- The operands of a node, from left to right. -/
def children : Node → List Node
  | binary _ left right _ => [left, right]
  | _ => []

/-- The number of nodes of a tree. -/
def size : Node → Nat
  | binary _ left right _ => 1 + left.size + right.size
  | _ => 1

/--
What a node says beside its class: the decimal of a number, the symbol of an operation;
nothing, where a class has no more to say.
-/
def data : Node → Option String
  | plain _ => some ""
  | expression _ => some ""
  | number value _ => some (Numeral.decimal value)
  | binary operation _ _ _ => operation.map Operation.symbol

/-- Whether all numbers of a tree have few enough digits to be written. -/
def isWritable : Node → Bool
  | number value _ => (Numeral.write value).isOk
  | binary _ left right _ => left.isWritable && right.isWritable
  | _ => true

/-- A text that shows all numbers of a tree, unless one of them cannot be written. -/
def written (node : Node) (text : String) : Except Numeral.Error String :=
  if node.isWritable then .ok text else .error .tooLongToWrite

/-- The tree of all nodes, each labelled with itself. -/
def toRose : Node → Rose Node
  | binary operation left right location =>
      .node (binary operation left right location) [left.toRose, right.toRose]
  | leaf => .node leaf []

/-- The nodes of a tree, each before its operands. -/
def preorder : Node → List Node
  | binary operation left right location =>
      binary operation left right location :: (left.preorder ++ right.preorder)
  | leaf => [leaf]

/-- The literal of a tree: class names with the literals of the operands. -/
def literal : Node → String
  | number value _ => "Number(" ++ Numeral.decimal value ++ ")"
  | binary operation left right _ =>
      (classOfOperation operation).name ++ "(" ++ left.literal ++ ", " ++ right.literal ++
        ")"
  | leaf => leaf.classOf.name

/-- The literal of a tree, where it can be written. -/
def describe (node : Node) : Except Numeral.Error String :=
  node.written node.literal

theorem size_pos (node : Node) : 0 < node.size := by
  cases node <;> simp only [size] <;> omega

end Node
end Precedence
