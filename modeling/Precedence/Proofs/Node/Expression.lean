import Precedence.Node.Basic

/-!
# The expression of a tree

A tree of numbers and operations denotes an expression: what it says, apart from where it
was read.
-/

namespace Precedence

/-- What a tree says, apart from where it was read. -/
inductive Expr where
  | number (value : Int)
  | binary (operation : Operation) (left right : Expr)
deriving DecidableEq

namespace Node

/-- The expression of a tree, unless it has a node of a general class. -/
def expr? : Node → Option Expr
  | .number value _ => some (.number value)
  | .binary (some operation) left right _ => do
      let left ← left.expr?
      let right ← right.expr?
      return .binary operation left right
  | _ => none

variable {left right : Node}
variable {expr : Expr}

theorem expr?_binary_iff
    {operation : Option Operation}
    {location : Location} :
    (binary operation left right location).expr? = some expr ↔
      ∃ kind leftExpr rightExpr,
        operation = some kind ∧ left.expr? = some leftExpr ∧ right.expr? = some rightExpr ∧
        expr = .binary kind leftExpr rightExpr := by
  cases operation with
  | none =>
      simp [expr?]
  | some kind =>
      simp only [expr?, Option.bind_eq_bind, Option.pure_def, Option.bind_eq_some_iff,
        Option.some.injEq]
      constructor
      · rintro ⟨leftExpr, ofLeft, rightExpr, ofRight, rfl⟩
        exact ⟨kind, leftExpr, rightExpr, rfl, ofLeft, ofRight, rfl⟩
      · rintro ⟨_, leftExpr, rightExpr, rfl, ofLeft, ofRight, rfl⟩
        exact ⟨leftExpr, ofLeft, rightExpr, ofRight, rfl⟩

end Node
end Precedence
