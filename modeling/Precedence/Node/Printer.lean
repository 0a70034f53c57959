import Precedence.Node.Basic

/-!
# Printing trees

A tree is printed with a line for each node, parents before their operands and left
before right. A line is indented by two blanks for each node above it and has the name of
the node's class and, behind a blank, what the node says beside it. A tree with a number of
more digits than can be written is not printed.
-/

namespace Precedence
namespace Node

/-- The line of a node at a depth, without the end of the line. -/
def line (depth : Nat) (node : Node) : String :=
  let indent := String.ofList (List.replicate (2 * depth) ' ')
  match node.data with
  | some "" => indent ++ node.classOf.name
  | some data => indent ++ node.classOf.name ++ " " ++ data
  | none => indent ++ node.classOf.name

/-- The number of nodes that are still to be printed. -/
def pendingSize : List (Node × Nat) → Nat
  | [] => 0
  | (node, _) :: rest => node.size + pendingSize rest

/-- The lines of some trees, each at a depth, from the first to the last. -/
def linesOf : List (Node × Nat) → List String
  | [] => []
  | (binary operation left right location, depth) :: rest =>
      line depth (binary operation left right location) ::
        linesOf ((left, depth + 1) :: (right, depth + 1) :: rest)
  | (leaf, depth) :: rest => line depth leaf :: linesOf rest
termination_by pending => pendingSize pending
decreasing_by
  · simp only [pendingSize, size]; omega
  · have := size_pos leaf
    simp only [pendingSize]; omega

/-- The lines of a tree, each with its end. -/
def render (node : Node) : String :=
  String.join ((linesOf [(node, 0)]).map (· ++ "\n"))

/-- The printed form of a tree. -/
def print (node : Node) : Except Numeral.Error String :=
  node.written node.render

end Node
end Precedence
