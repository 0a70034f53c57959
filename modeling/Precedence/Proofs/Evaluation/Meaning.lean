import Mathlib.Data.Rat.Floor
import Precedence.Arithmetic
import Precedence.Proofs.Node.Expression
import Precedence.Proofs.Walk.Postorder

/-!
# What expressions mean

The meaning of an expression is defined by recursion on the tree, with exact numbers: a
quotient is a rational number that is rounded down, and so is one divided by a power. Nothing
is divided by zero.

* `Evaluation.result?_eq_exact?`: integer arithmetic gives the exact results.
* `Evaluation.outcome_evaluate`: the walk that evaluates a tree ends with the meaning, or with
  an error at the first node in postorder that is undefined while its operands are defined.
* `Arithmetic.evaluate_means` says both for the evaluation with its diagnostics.
-/

namespace Precedence

/-- The exact result of an operation, if it is defined. -/
def Operation.exact? : Operation → Int → Int → Option Int
  | .addition, left, right => some (left + right)
  | .subtraction, left, right => some (left - right)
  | .multiplication, left, right => some (left * right)
  | .division, left, right => if right = 0 then none else some ⌊(left / right : ℚ)⌋
  | .exponentiation, base, exponent =>
      if 0 ≤ exponent then some (base ^ exponent.toNat)
      else if base = 0 then none
      else some ⌊(1 / base ^ (-exponent).toNat : ℚ)⌋

namespace Evaluation

/-- The quotient that is rounded toward negative infinity is the floor of the exact one. -/
theorem fdiv_eq_floor
    (dividend divisor : Int) :
    dividend.fdiv divisor = ⌊(dividend / divisor : ℚ)⌋ := by
  have byNat (dividend : Int) (count : Nat) :
      dividend.fdiv count = ⌊(dividend / count : ℚ)⌋ := by
    rw [Rat.floor_intCast_div_natCast, Int.fdiv_eq_ediv_of_nonneg _ (Int.natCast_nonneg count)]
  obtain ⟨count, rfl | rfl⟩ := divisor.eq_nat_or_neg
  · exact byNat dividend count
  · have flipped := byNat (-dividend) count
    rw [← Int.neg_fdiv_neg, neg_neg] at flipped
    rw [flipped, Int.cast_neg, Int.cast_neg, Int.cast_natCast, div_neg, neg_div]

theorem divide?_eq
    (dividend divisor : Int) :
    divide? dividend divisor =
      if divisor = 0 then none else some ⌊(dividend / divisor : ℚ)⌋ := by
  rw [divide?, fdiv_eq_floor]

theorem power?_eq
    (base exponent : Int) :
    power? base exponent = Operation.exponentiation.exact? base exponent := by
  have power_eq (count : Nat) : power base count = base ^ count := power_eq_pow base count
  simp only [power?, Operation.exact?]
  by_cases negative : exponent < 0
  · have positive : (-exponent).toNat ≠ 0 := by
      omega
    rw [if_pos negative, if_neg (not_le.mpr negative), divide?_eq, power_eq]
    simp only [pow_eq_zero_iff positive, Int.cast_one, Int.cast_pow]
  · rw [if_neg negative, if_pos (not_lt.mp negative), power_eq]

/-- Integer arithmetic gives the exact result of every operation. -/
theorem result?_eq_exact?
    (operation : Operation)
    (left right : Int) :
    result? operation left right = operation.exact? left right := by
  cases operation with
  | addition => rfl
  | subtraction => rfl
  | multiplication => rfl
  | division => exact divide?_eq left right
  | exponentiation => exact power?_eq left right

end Evaluation

namespace Node

/-- The exact value of an expression, if it is defined. -/
def meaning? : Node → Option Int
  | number value _ => some value
  | binary (some operation) left right _ => do
      let leftValue ← left.meaning?
      let rightValue ← right.meaning?
      operation.exact? leftValue rightValue
  | _ => none

/-- The nodes of a tree, each behind its operands and these from left to right. -/
def postorder (node : Node) : List Node :=
  node.toRose.postorder.map Rose.label

/-- Whether the node is undefined while all its operands are defined. -/
def isUndefined (node : Node) : Bool :=
  node.meaning?.isNone && node.children.all fun operand => operand.meaning?.isSome

variable {node : Node}

theorem postorder_binary
    (operation : Option Operation)
    (left right : Node)
    (location : Location) :
    (binary operation left right location).postorder =
      left.postorder ++ (right.postorder ++ [binary operation left right location]) := by
  simp [postorder, toRose, Rose.postorder, Rose.postorders, Rose.label]

theorem evaluate_eq_fold
    (node : Node) :
    node.evaluate = node.toRose.fold Evaluation.step :=
  Rose.walk_eq_fold Evaluation.step node.toRose

theorem evaluate_number
    (value : Int)
    (location : Location) :
    (number value location).evaluate = .ok value := by
  rw [evaluate_eq_fold, toRose, Rose.fold, Rose.folds]
  · rfl
  · simp

theorem evaluate_binary
    (operation : Option Operation)
    (left right : Node)
    (location : Location) :
    (binary operation left right location).evaluate = (do
      let leftValue ← left.evaluate
      let rightValue ← right.evaluate
      Evaluation.step (binary operation left right location) [leftValue, rightValue]) := by
  simp only [evaluate_eq_fold, toRose, Rose.fold, Rose.folds, bind_assoc, pure_bind]

end Node

/-- The exact value of what a tree says, if it is defined. -/
def Expr.meaning? : Expr → Option Int
  | number value => some value
  | binary operation left right => do
      let leftValue ← left.meaning?
      let rightValue ← right.meaning?
      operation.exact? leftValue rightValue

/-- A tree has the meaning of its expression. -/
theorem Node.meaning?_eq
    {node : Node}
    {expr : Expr}
    (ofNode : node.expr? = some expr) :
    node.meaning? = expr.meaning? := by
  induction node generalizing expr with
  | plain location => cases ofNode
  | expression location => cases ofNode
  | number value location =>
      cases ofNode
      rfl
  | binary operation left right location ihLeft ihRight =>
      obtain ⟨kind, leftExpr, rightExpr, rfl, ofLeft, ofRight, rfl⟩ := expr?_binary_iff.mp ofNode
      rw [meaning?, ihLeft ofLeft, ihRight ofRight, Expr.meaning?]

namespace Evaluation

variable {node : Node}

/-- How the evaluation of a tree may end: with its meaning, or at an undefined node. -/
inductive Outcome (node : Node) : Except Error Int → Prop
  | value
      {value : Int}
      (means : node.meaning? = some value)
      (defined : node.postorder.find? Node.isUndefined = none) :
      Outcome node (.ok value)
  | undefined
      {sub : Node}
      (meaningless : node.meaning? = none)
      (first : node.postorder.find? Node.isUndefined = some sub) :
      Outcome node (.error (.divisionByZero sub.location))

/-- An operation on defined operands ends with its exact result, or is undefined itself. -/
theorem outcome_step
    {kind : Operation}
    {left right : Node}
    {location : Location}
    {leftValue rightValue : Int}
    (leftMeans : left.meaning? = some leftValue)
    (rightMeans : right.meaning? = some rightValue)
    (last : (Node.binary (some kind) left right location).postorder.find? Node.isUndefined =
      [Node.binary (some kind) left right location].find? Node.isUndefined) :
    Outcome (.binary (some kind) left right location)
      (step (.binary (some kind) left right location) [leftValue, rightValue]) := by
  have means : (Node.binary (some kind) left right location).meaning? =
      kind.exact? leftValue rightValue := by
    simp [Node.meaning?, leftMeans, rightMeans]
  rw [step, result?_eq_exact?]
  cases exact : kind.exact? leftValue rightValue with
  | some value =>
      rw [exact] at means
      refine .value means ?_
      simp [last, Node.isUndefined, means]
  | none =>
      rw [exact] at means
      have first : (Node.binary (some kind) left right location).postorder.find? Node.isUndefined =
          some (.binary (some kind) left right location) := by
        simp [last, Node.isUndefined, means, Node.children, leftMeans, rightMeans]
      exact .undefined means first

/-- The evaluation of an expression ends in one of these ways. -/
theorem outcome_evaluate
    {expr : Expr}
    (ofNode : node.expr? = some expr) :
    Outcome node node.evaluate := by
  induction node generalizing expr with
  | plain location => cases ofNode
  | expression location => cases ofNode
  | number value location =>
      rw [Node.evaluate_number]
      exact .value rfl rfl
  | binary operation left right location ihLeft ihRight =>
      obtain ⟨kind, leftExpr, rightExpr, rfl, ofLeft, ofRight, rfl⟩ :=
        Node.expr?_binary_iff.mp ofNode
      have order := Node.postorder_binary (some kind) left right location
      have leftEnds := ihLeft ofLeft
      have rightEnds := ihRight ofRight
      rw [Node.evaluate_binary]
      generalize left.evaluate = leftOutcome, right.evaluate = rightOutcome at leftEnds rightEnds
      cases leftEnds with
      | undefined meaningless first =>
          refine .undefined ?_ ?_
          · simp [Node.meaning?, meaningless]
          · simp [order, first]
      | value leftMeans leftDefined =>
          cases rightEnds with
          | undefined meaningless first =>
              refine .undefined ?_ ?_
              · simp [Node.meaning?, meaningless]
              · rw [order, List.find?_append, List.find?_append, leftDefined, first]
                rfl
          | value rightMeans rightDefined =>
              refine outcome_step leftMeans rightMeans ?last
              rw [order, List.find?_append, List.find?_append, leftDefined, rightDefined]
              rfl

/-- An expression that means something is evaluated to it. -/
theorem evaluate_of_meaning
    {expr : Expr}
    {value : Int}
    (ofNode : node.expr? = some expr)
    (means : expr.meaning? = some value) :
    node.evaluate = .ok value := by
  have nodeMeans := (Node.meaning?_eq ofNode).trans means
  have ends := outcome_evaluate ofNode
  generalize node.evaluate = outcome at ends
  cases ends with
  | value means' _ =>
      cases nodeMeans.symm.trans means'
      rfl
  | undefined meaningless _ =>
      cases nodeMeans.symm.trans meaningless

end Evaluation

namespace Arithmetic

open Evaluation

/-- The report of an operation without a result. -/
def undefinedProblem (location : Location) : Problem :=
  .reported ⟨.evaluation, some location, "division by zero"⟩

/--
The evaluation of an expression gives its exact meaning. If it has none, the evaluation fails
at the first node in postorder that is undefined while its operands are defined, and there is
such a node only if the evaluation fails.
-/
theorem evaluate_means
    {node : Node}
    {expr : Expr}
    (ofNode : node.expr? = some expr) :
    (∀ value, evaluate node = .ok value ↔ node.meaning? = some value) ∧
    (∀ problem, evaluate node = .error problem ↔ ∃ sub,
      node.postorder.find? Node.isUndefined = some sub ∧
      problem = undefinedProblem sub.location) ∧
    ((∃ problem, evaluate node = .error problem) ↔
      ∃ sub ∈ node.postorder, sub.isUndefined = true) := by
  have some_iff := @List.find?_isSome _ node.postorder Node.isUndefined
  have ends := outcome_evaluate ofNode
  unfold evaluate
  generalize node.evaluate = outcome at ends
  cases ends with
  | value means defined =>
      rw [defined] at some_iff ⊢
      refine ⟨fun value => ?_, fun problem => ?_, ?_⟩
      · simp [means, Except.mapError]
      · simp [Except.mapError]
      · simpa [Except.mapError] using some_iff
  | undefined meaningless first =>
      rw [first] at some_iff ⊢
      refine ⟨fun value => ?_, fun problem => ?_, ?_⟩
      · simp [meaningless, Except.mapError]
      · simp [Except.mapError, undefinedProblem, divisionMessage, eq_comm]
      · simpa [Except.mapError] using some_iff

/-- The sum of `7 / -2` and `0 ^ -1`, the second of which is undefined. -/
theorem evaluate_means_sum :
    let place := fun column => Location.ofPositions "sum" ⟨1, column⟩ ⟨1, column + 1⟩
    let quotient := Node.binary (some .division) (.number 7 (place 1)) (.number (-2) (place 2))
      (place 3)
    let power := Node.binary (some .exponentiation) (.number 0 (place 4)) (.number (-1) (place 5))
      (place 6)
    let sum := Node.binary (some .addition) quotient power (place 7)
    quotient.expr? = some (.binary .division (.number 7) (.number (-2))) ∧
    evaluate quotient = .ok (-4) ∧
    sum.expr?.isSome = true ∧
    evaluate sum = .error (undefinedProblem (place 6)) := by
  intro place quotient power sum
  have rounded : ⌊((7 : Int) / (-2 : Int) : ℚ)⌋ = -4 := by
    norm_num
  refine ⟨rfl, ((evaluate_means rfl).1 _).mpr (congrArg some rounded), rfl, ?_⟩
  exact ((evaluate_means rfl).2.1 _).mpr ⟨power, rfl, rfl⟩

end Arithmetic
end Precedence
