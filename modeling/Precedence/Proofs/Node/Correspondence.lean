import Precedence.Node.Printer

/-!
# Corresponding trees

Two trees correspond if only their locations tell them apart, and these are related. Such trees
are printed alike.
-/

namespace Precedence

variable {spots : Location → Location → Prop}

/-- Two trees that only their locations tell apart, which are related. -/
inductive Node.Corresponds (spots : Location → Location → Prop) : Node → Node → Prop
  | plain
      {here there : Location}
      (located : spots here there) :
      Corresponds spots (.plain here) (.plain there)
  | expression
      {here there : Location}
      (located : spots here there) :
      Corresponds spots (.expression here) (.expression there)
  | number
      {here there : Location}
      (value : Int)
      (located : spots here there) :
      Corresponds spots (.number value here) (.number value there)
  | binary
      {left left' right right' : Node}
      {here there : Location}
      (operation : Option Operation)
      (leftSame : Corresponds spots left left')
      (rightSame : Corresponds spots right right')
      (located : spots here there) :
      Corresponds spots (.binary operation left right here) (.binary operation left' right' there)

namespace Node.Corresponds

variable {node node' : Node}

theorem located
    (same : Corresponds spots node node') :
    spots node.location node'.location := by
  cases same with
  | plain located => exact located
  | expression located => exact located
  | number value located => exact located
  | binary operation leftSame rightSame located => exact located

/-- The lines of a tree, whatever comes behind them, do not tell where it was read. -/
theorem linesOf_eq
    (same : Corresponds spots node node')
    (depth : Nat)
    {pending pending' : List (Node × Nat)}
    (behind : linesOf pending = linesOf pending') :
    linesOf ((node, depth) :: pending) = linesOf ((node', depth) :: pending') := by
  induction same generalizing depth pending pending' with
  | binary operation leftSame rightSame located ihLeft ihRight =>
      rw [linesOf, linesOf]
      exact congrArg (List.cons _) (ihLeft (depth + 1) (ihRight (depth + 1) behind))
  | _ =>
      rw [linesOf, linesOf, behind]
      · rfl
      all_goals simp

theorem render_eq
    (same : Corresponds spots node node') :
    node.render = node'.render := by
  rw [render, render, same.linesOf_eq 0 rfl]

end Node.Corresponds

end Precedence
