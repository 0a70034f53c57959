import Precedence.Node.Basic
import Precedence.Value.Hash

/-!
# Equality of trees

Trees are compared without their locations. One tree *agrees* with another when the class
of each of its nodes includes the class of the node in the same place and the values of
the numbers are the same; a node of a general class without operands agrees with every
node of its class, whatever is below that one.

Agreement goes one way. In a comparison the tree whose root has the more special class is
asked, and the first of the two where neither is more special.

The hash of a tree is that of the class and the data of its root. The data of a number is
its decimal, so a number of more digits than can be written has no hash. Trees with roots of
the same class and the same data have the same hash or none.
-/

namespace Precedence
namespace Node

/-- The number of nodes on the left of some pairs. -/
def pairsSize : List (Node × Node) → Nat
  | [] => 0
  | (node, _) :: rest => node.size + pairsSize rest

/--
Whether in each pair the first tree agrees with the second. The pairs that are still to
be looked at are kept in a list; a pair of binary nodes is replaced by the pairs of their
operands, of which the right ones are looked at first.
-/
def allAgree : List (Node × Node) → Bool
  | [] => true
  | (number value _, other) :: rest =>
      match other with
      | number otherValue _ => value == otherValue && allAgree rest
      | _ => false
  | (binary operation left right _, other) :: rest =>
      match other with
      | binary otherOperation otherLeft otherRight _ =>
          (classOfOperation operation).includes (classOfOperation otherOperation) &&
            allAgree ((right, otherRight) :: (left, otherLeft) :: rest)
      | _ => false
  | (leaf, other) :: rest => leaf.classOf.includes other.classOf && allAgree rest
termination_by pairs => pairsSize pairs
decreasing_by
  · simp only [pairsSize, size]; omega
  · simp only [pairsSize, size]; omega
  · have := size_pos leaf
    simp only [pairsSize]; omega

/-- Whether a tree agrees with another. -/
def agrees (node other : Node) : Bool :=
  allAgree [(node, other)]

/-- Whether the second node is of a more special class than the first. -/
def isMoreSpecial (node other : Node) : Bool :=
  node.classOf.includes other.classOf && node.classOf ≠ other.classOf

/-- Equality of trees. -/
def equal (node other : Node) : Bool :=
  if node.isMoreSpecial other then
    other.agrees node
  else
    node.agrees other

/-- Inequality of trees. The same tree is asked as for equality. -/
def unequal (node other : Node) : Bool :=
  if node.isMoreSpecial other then
    !other.agrees node
  else
    !node.agrees other

/-- The hash key of what a node says beside its class, where that can be written. -/
def dataKey : Node → Except Numeral.Error (HashKey Class)
  | number value _ => (Numeral.write value).map .ofText
  | node => .ok (node.data.elim .null .ofText)

/-- The hash key of a tree: that of the class and of the data of its root together. -/
def hashKey (node : Node) : Except Numeral.Error (HashKey Class) :=
  node.dataKey.map fun data => .tuple [.object node.classOf, data]

/-- The hash of a tree, if it has one. -/
def hash (hashing : Hashing Class) (node : Node) : Except Numeral.Error Hash :=
  node.hashKey.map (·.hash hashing)

/-- Whether two trees have the same hash. -/
def sameHash (hashing : Hashing Class) (node other : Node) : Except Numeral.Error Bool := do
  let hash ← node.hash hashing
  let otherHash ← other.hash hashing
  return hash = otherHash

/--
Add a tree to a collection without duplicates: it is left out when a tree that is already
there has the same hash and equals it.
-/
def insertDistinct (hashing : Hashing Class) (collection : List Node) (node : Node) :
    Except Numeral.Error (List Node) := do
  let hash ← node.hash hashing
  let isThere := collection.any fun kept =>
    decide ((kept.hash hashing).toOption = some hash) && kept.equal node
  return if isThere then collection else collection ++ [node]

/-- The trees of a list without duplicates. -/
def distinct (hashing : Hashing Class) (nodes : List Node) : Except Numeral.Error (List Node) :=
  nodes.foldlM (insertDistinct hashing) []

end Node
end Precedence
