import Precedence.LevelTable
import Precedence.Proofs.Level.Operands
import Precedence.Proofs.Node.Expression

/-!
# The layered grammar of a level table

What a level table says about tokens, without a parser. The first level of a list derives
one or more operands, each derived by the levels behind it, with a token of its operator
between any two. Behind the last level stand integers, and expressions of the whole table
in parentheses.

* `LevelTable.Derives` relates a list of levels, tokens and the expression that they derive.
* `NestsWithin` bounds how many parentheses are open at once, wherever one stops reading.
-/

namespace Precedence

namespace OperatorLevel

/-- The expression of operands at a level, grouped to the side of the level. -/
def fold (level : OperatorLevel) (first : Expr) (rest : List Expr) : Expr :=
  match level.associativity with
  | .left => rest.foldl (.binary level.operation) first
  | .right => Level.foldRight (.binary level.operation) first rest

variable (level : OperatorLevel)

theorem fold_nil
    (first : Expr) :
    level.fold first [] = first := by
  unfold fold
  cases level.associativity <;> rfl

theorem fold_append
    (toLeft : level.associativity = .left)
    (first last : Expr)
    (rest : List Expr) :
    level.fold first (rest ++ [last]) =
      .binary level.operation (level.fold first rest) last := by
  simp only [fold, toLeft, List.foldl_append, List.foldl_cons, List.foldl_nil]

theorem fold_cons
    (toRight : level.associativity = .right)
    (first second : Expr)
    (rest : List Expr) :
    level.fold first (second :: rest) =
      .binary level.operation first (level.fold second rest) := by
  simp only [fold, toRight, Level.foldRight]

end OperatorLevel

/-- Wherever one stops reading, at most so many of the opened are not closed. -/
def NestsWithin {α : Type} (opening closing : α → Bool) (limit : Nat) (items : List α) :
    Prop :=
  ∀ front, front <+: items → front.countP opening ≤ front.countP closing + limit

namespace Token

/-- Whether a token has the given tag and text. -/
def is (tag : Tag) (text : String) (token : Token) : Bool :=
  token.tag == tag && token.text == text

/-- Whether a token opens a parenthesis. -/
def opens : Token → Bool :=
  is Tag.reserved "("

/-- Whether a token closes a parenthesis. -/
def closes : Token → Bool :=
  is Tag.reserved ")"

variable {token : Token} {tag : Tag} {text : String}

theorem is_iff :
    token.is tag text = true ↔ token.tag = tag ∧ token.text = text := by
  simp only [is, Bool.and_eq_true, beq_iff_eq]

theorem tag_of_opens
    (opening : token.opens = true) :
    token.tag = Tag.reserved :=
  (is_iff.mp opening).1

theorem tag_of_closes
    (closing : token.closes = true) :
    token.tag = Tag.reserved :=
  (is_iff.mp closing).1

theorem not_opens_of_tag
    (other : token.tag ≠ Tag.reserved) :
    token.opens = false := by
  simp only [opens, is, beq_eq_false_iff_ne.mpr other, Bool.false_and]

theorem not_closes_of_tag
    (other : token.tag ≠ Tag.reserved) :
    token.closes = false := by
  simp only [closes, is, beq_eq_false_iff_ne.mpr other, Bool.false_and]

theorem not_closes_of_opens
    (opening : token.opens = true) :
    token.closes = false := by
  have differ : ("(" == ")") = false := by
    decide
  rw [opens, is_iff] at opening
  rw [closes, is, opening.2, differ, Bool.and_false]

theorem not_opens_of_closes
    (closing : token.closes = true) :
    token.opens = false := by
  by_cases opening : token.opens = true
  · rw [not_closes_of_opens opening] at closing
    cases closing
  · exact Bool.eq_false_iff.mpr opening

end Token

namespace LevelTable

/-- No two levels have the same operator. -/
def Distinct (table : LevelTable) : Prop :=
  table.Pairwise fun a b => a.operator ≠ b.operator

instance (table : LevelTable) : Decidable table.Distinct :=
  inferInstanceAs (Decidable (List.Pairwise _ table))

/-- An operator token and the operand behind it. -/
structure Operand where
  separator : Token
  tokens : List Token
  expr : Expr

/-- All tokens of an operand, the operator in front. -/
def Operand.all (operand : Operand) : List Token :=
  operand.separator :: operand.tokens

/-- The tokens that a list of levels of a table derives, and the expression that they say. -/
inductive Derives (table : LevelTable) : LevelTable → List Token → Expr → Prop
  | integer
      {token : Token}
      {value : Int}
      (tagged : token.tag = Tag.integer)
      (reads : Numeral.read token.text = .ok value) :
      Derives table [] [token] (.number value)
  | group
      {opening closing : Token}
      {tokens : List Token}
      {expr : Expr}
      (opens : opening.opens = true)
      (inner : Derives table table tokens expr)
      (closes : closing.closes = true) :
      Derives table [] (opening :: (tokens ++ [closing])) expr
  | level
      {level : OperatorLevel}
      {levels : LevelTable}
      {tokens : List Token}
      {first : Expr}
      {operands : List Operand}
      (head : Derives table levels tokens first)
      (separators : ∀ operand ∈ operands,
        operand.separator.is Tag.operator level.operator = true)
      (tail : ∀ operand ∈ operands, Derives table levels operand.tokens operand.expr) :
      Derives table (level :: levels) (tokens ++ operands.flatMap Operand.all)
        (level.fold first (operands.map Operand.expr))

end LevelTable
end Precedence
