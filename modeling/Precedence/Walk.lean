/-!
# Walks over trees

A *walk* computes a value for each node of a tree, children first: the action at a node
gets the values of its children, from left to right. The trees may be of any arity and
depth, and the action may have effects.

The walk keeps what it still has to see to in a list, so the depth of the tree is not a depth
of calls. A node with children comes up twice. The first time it is put back, marked as
expanded, behind its children. The second time all of these have been left, and the latest
values are theirs; they are taken back and make room for the value of the node.

`fold` is the same by recursion on the tree.
-/

namespace Precedence

/-- A tree with a label and a list of children at each node. -/
inductive Rose (α : Type) where
  | node (label : α) (children : List (Rose α))

namespace Rose

variable {α β : Type} {m : Type → Type} [Monad m]

/-- The label at the root. -/
def label : Rose α → α
  | node label _ => label

/-- The subtrees below the root. -/
def children : Rose α → List (Rose α)
  | node _ children => children

mutual

/-- The number of nodes. -/
def size : Rose α → Nat
  | node _ children => 1 + sizes children

/-- The number of nodes of several trees. -/
def sizes : List (Rose α) → Nat
  | [] => 0
  | tree :: trees => size tree + sizes trees

end

mutual

/-- Compute the values of the children from left to right, then act at the node. -/
def fold (action : α → List β → m β) : Rose α → m β
  | node label children => do
      let values ← folds action children
      action label values

/-- The values of several trees, from left to right. -/
def folds (action : α → List β → m β) : List (Rose α) → m (List β)
  | [] => pure []
  | tree :: trees => do
      let value ← fold action tree
      let values ← folds action trees
      pure (value :: values)

end

/-- A tree that a walk still has to see to. -/
structure Task (α : Type) where
  tree : Rose α
  /-- Whether the children were put in front of it already. -/
  expanded : Bool

/-- Enter a tree that the walk has not come to yet. -/
def Task.enter (tree : Rose α) : Task α :=
  ⟨tree, false⟩

/-- Enter some trees, from left to right, before all other tasks. -/
def enterAll (trees : List (Rose α)) (tasks : List (Task α)) : List (Task α) :=
  trees.map Task.enter ++ tasks

/-- A bound on how often a task and those that it leads to come up. -/
def Task.visits (task : Task α) : Nat :=
  if task.expanded then 1 else 2 * task.tree.size

theorem Task.visits_pos (task : Task α) : 0 < task.visits := by
  obtain ⟨⟨label, children⟩, expanded⟩ := task
  unfold visits
  split
  · exact Nat.one_pos
  · simp only [size]
    omega

/-- A bound on how often some tasks and those that they lead to come up. -/
def visits : List (Task α) → Nat
  | [] => 0
  | task :: tasks => task.visits + visits tasks

theorem visits_enterAll
    (trees : List (Rose α))
    (tasks : List (Task α)) :
    visits (enterAll trees tasks) = 2 * sizes trees + visits tasks := by
  induction trees with
  | nil =>
      simp [enterAll, sizes]
  | cons tree trees ih =>
      change 2 * tree.size + visits (enterAll trees tasks) = _
      rw [ih, sizes]
      omega

/--
Go on with a walk, given the task that comes up, the tasks behind it and all values so far,
the latest first. When no task is left the first of all values is that of the whole tree.
-/
def proceed (action : α → List β → m β) (task : Task α) (tasks : List (Task α))
    (values : List β) : m β :=
  match task with
  | ⟨node label (child :: others), false⟩ =>
      proceed action (.enter child) (enterAll others (⟨node label (child :: others), true⟩ :: tasks))
        values
  | ⟨node label children, _⟩ => do
      let value ← action label (values.take children.length).reverse
      let values := value :: values.drop children.length
      match tasks with
      | [] => pure (values.getLast (List.cons_ne_nil _ _))
      | task :: tasks => proceed action task tasks values
termination_by visits (task :: tasks)
decreasing_by
  · simp only [visits, visits_enterAll, Task.enter, Task.visits, size, sizes,
      Bool.false_eq_true, if_false, if_true]
    omega
  · exact Nat.lt_add_of_pos_left (Task.visits_pos _)

/-- Walk over a whole tree. -/
def walk (action : α → List β → m β) (tree : Rose α) : m β :=
  proceed action (.enter tree) [] []

end Rose
end Precedence
