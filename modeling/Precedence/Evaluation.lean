import Precedence.Diagnostic
import Precedence.Node.Basic

/-!
# Evaluating expressions

The integer that an expression denotes. Division rounds toward negative infinity. A power
with a negative exponent is one divided by the positive power, rounded in the same way.
A division by zero, and zero to a negative power, have no result; the location of the
operation is reported. Operands are evaluated from left to right before the operation.
-/

namespace Precedence
namespace Evaluation

/-- Why an expression has no value. -/
inductive Error where
  /-- A division by zero in the operation at the location. -/
  | divisionByZero (location : Location)
  /-- A node of a general class, which denotes nothing. -/
  | meaningless

/-- The wording of a division by zero. -/
def divisionMessage : String := "division by zero"

/-- The quotient rounded toward negative infinity. -/
def divide? (dividend divisor : Int) : Option Int :=
  if divisor = 0 then none else some (dividend.fdiv divisor)

/--
The power by a natural exponent. The powers of zero, one and minus one are known without
multiplying, so their exponents may be of any size.
-/
def power (base : Int) (exponent : Nat) : Int :=
  if base = 0 then
    if exponent = 0 then 1 else 0
  else if base = 1 then
    1
  else if base = -1 then
    if exponent % 2 = 0 then 1 else -1
  else
    Int.pow base exponent

theorem power_eq_pow
    (base : Int)
    (exponent : Nat) :
    power base exponent = Int.pow base exponent := by
  change power base exponent = base ^ exponent
  unfold power
  split
  · subst base
    cases exponent with
    | zero => rfl
    | succ n => exact (Int.zero_pow (Nat.succ_ne_zero n)).symm
  · split
    · subst base
      exact (Int.one_pow).symm
    · split
      · subst base
        have halves := Nat.div_add_mod exponent 2
        have square : ((-1 : Int) ^ 2) = 1 := rfl
        split
        · rename_i even
          rw [← halves, even, Int.pow_add, Int.pow_mul, square, Int.one_pow]
          rfl
        · have odd : exponent % 2 = 1 := by omega
          rw [← halves, odd, Int.pow_add, Int.pow_mul, square, Int.one_pow]
          rfl
      · rfl

/-- The power, by an exponent of any sign. -/
def power? (base exponent : Int) : Option Int :=
  if exponent < 0 then
    divide? 1 (power base (-exponent).toNat)
  else
    some (power base exponent.toNat)

/-- The result of an operation, if it has one. -/
def result? : Operation → Int → Int → Option Int
  | .addition, left, right => some (left + right)
  | .subtraction, left, right => some (left - right)
  | .multiplication, left, right => some (left * right)
  | .division, left, right => divide? left right
  | .exponentiation, left, right => power? left right

/-- The value of a node, given the values of its operands. -/
def step (node : Node) (operands : List Int) : Except Error Int :=
  match node, operands with
  | .number value _, _ => .ok value
  | .binary (some operation) _ _ location, [left, right] =>
      match result? operation left right with
      | some value => .ok value
      | none => .error (.divisionByZero location)
  | _, _ => .error .meaningless

end Evaluation

/-- The value of an expression. -/
def Node.evaluate (node : Node) : Except Evaluation.Error Int :=
  node.toRose.walk Evaluation.step

end Precedence
