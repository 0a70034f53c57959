import Precedence.Node.Basic

/-!
# Visitors

A visitor computes a value for each node of a tree, operands first, by methods that are
chosen by the class of the node. The method for a class is named by a prefix and the name
of the class; a node whose class has no method cannot be visited.
-/

namespace Precedence

/-- What a visitor does at the nodes of each class. -/
structure Visitor (m : Type → Type) (β : Type) where
  /-- The name of the method for a class of nodes. -/
  methodName : String → String
  /-- The method of a name, if there is one. -/
  method? : String → Option (Node → List β → m β)
  /-- What is done at a node without a method. -/
  default : Node → List β → m β

namespace Visitor

variable {m : Type → Type} {β : Type}

/-- Methods are named like `visitAddition` unless a visitor names them otherwise. -/
def defaultMethodName (className : String) : String :=
  "visit" ++ className

/-- What a visitor does at a node, given the values of the operands. -/
def dispatch (visitor : Visitor m β) (node : Node) (values : List β) : m β :=
  match visitor.method? (visitor.methodName node.classOf.name) with
  | some method => method node values
  | none => visitor.default node values

/-- Visit a whole tree. -/
def visit [Monad m] (visitor : Visitor m β) (node : Node) : m β :=
  node.toRose.walk visitor.dispatch

end Visitor
end Precedence
