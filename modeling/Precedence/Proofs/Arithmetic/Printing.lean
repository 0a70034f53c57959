import Precedence.LevelTable
import Precedence.Proofs.Node.Expression
import Precedence.Proofs.Number.Decimal
import Precedence.Proofs.Token.Segmentation

/-!
# Printing with the fewest parentheses

A tree whose operations are of levels of a table is written with a blank on both sides of an
operator. An operand stands in parentheses exactly when its level is looser than its place
allows: on the side to which an operator groups, the level of the operator is allowed and
all tighter ones; on the other side only tighter ones.

The text is written as lexemes, too, with the same case distinction. They are canonical, so
the lexer finds them again.
-/

namespace Precedence

/-- A tree with a level of the table at each operation, and numbers that can be read back. -/
inductive LevelTree (table : LevelTable) where
  | leaf (value : Nat) (short : (Nat.toDigits 10 value).length ≤ Numeral.digitLimit)
  | node (place : Fin table.length) (left right : LevelTree table)

namespace OperatorLevel

/-- The loosest level that may stand without parentheses on the left of a level. -/
def leftBound (level : OperatorLevel) (place : Nat) : Nat :=
  match level.associativity with
  | .left => place
  | .right => place + 1

/-- The loosest level that may stand without parentheses on the right of a level. -/
def rightBound (level : OperatorLevel) (place : Nat) : Nat :=
  match level.associativity with
  | .left => place + 1
  | .right => place

end OperatorLevel

namespace LevelTable

/-- All operators are non-empty runs of operator characters. -/
def Lexical (table : LevelTable) : Prop :=
  ∀ level ∈ table,
    level.operator ≠ "" ∧ level.operator.toList.all Lexer.isOperator = true

end LevelTable

namespace LevelTree

open Lexer

variable {table : LevelTable}

/-- The expression that a tree stands for. -/
def expr : LevelTree table → Expr
  | leaf value _ => .number value
  | node place left right => .binary (table.get place).operation left.expr right.expr

/-- The text of a tree where no level looser than the bound may stand. -/
def textWithin : LevelTree table → Nat → String
  | leaf value _, _ => Numeral.decimal value
  | node place left right, bound =>
      let level := table.get place
      let inside :=
        left.textWithin (level.leftBound place) ++ " " ++ level.operator ++ " " ++
          right.textWithin (level.rightBound place)
      if place < bound then "(" ++ inside ++ ")" else inside

/-- The text of a tree. -/
def text (tree : LevelTree table) : String :=
  tree.textWithin 0

/-- The lexeme between two tokens. -/
def blank : Lexeme :=
  ⟨Tag.space, [' ']⟩

/-- The lexeme of a parenthesis. -/
def parenthesis (c : Char) : Lexeme :=
  ⟨Tag.reserved, [c]⟩

/-- The lexeme of an operator. -/
def operatorLexeme (level : OperatorLevel) : Lexeme :=
  ⟨Tag.operator, level.operator.toList⟩

/-- The lexemes of a tree where no level looser than the bound may stand. -/
def lexemesWithin : LevelTree table → Nat → List Lexeme
  | leaf value _, _ => [⟨Tag.integer, Nat.toDigits 10 value⟩]
  | node place left right, bound =>
      let level := table.get place
      let inside :=
        left.lexemesWithin (level.leftBound place) ++
          blank :: operatorLexeme level :: blank ::
            right.lexemesWithin (level.rightBound place)
      if place < bound then parenthesis '(' :: (inside ++ [parenthesis ')']) else inside

/-- The lexemes spell the text. -/
theorem toList_textWithin
    (tree : LevelTree table)
    (bound : Nat) :
    (tree.textWithin bound).toList = charsOf (tree.lexemesWithin bound) := by
  induction tree generalizing bound with
  | leaf value short =>
      rw [textWithin, lexemesWithin, Numeral.decimal_natCast, String.toList_ofList]
      simp
  | node place left right ihLeft ihRight =>
      rw [textWithin, lexemesWithin]
      split <;>
        simp [ihLeft, ihRight, blank, parenthesis, operatorLexeme]

section Canonical

variable {rest : List Lexeme}

/-- The first lexeme of a tree is no blank. -/
theorem head_lexemesWithin
    (tree : LevelTree table)
    (bound : Nat)
    (rest : List Lexeme) :
    ∀ next ∈ (tree.lexemesWithin bound ++ rest).head?, next.tag ≠ Tag.space := by
  induction tree generalizing bound rest with
  | leaf value short =>
      rintro next ⟨⟩
      exact (by decide : Tag.integer ≠ Tag.space)
  | node place left right ihLeft _ =>
      rw [lexemesWithin]
      split
      · rintro next ⟨⟩
        decide
      · rw [List.append_assoc]
        exact ihLeft _ _

/-- A parenthesis joins nothing. -/
theorem canonical_parenthesis
    {c : Char}
    (isParenthesis : isParenthesis c = true)
    (later : Canonical rest) :
    Canonical (parenthesis c :: rest) := by
  refine .cons (.parenthesis isParenthesis) ?_ later
  rintro next _ ⟨_, inClass, isRun⟩
  exact isRun.tag_ne_reserved rfl

/-- A run may stand in front of lexemes that do not begin with its tag. -/
theorem canonical_run
    {tag : Tag}
    {chars : List Char}
    {inClass : Char → Bool}
    (isRun : IsRun tag inClass)
    (nonempty : chars ≠ [])
    (all : ∀ c ∈ chars, inClass c = true)
    (differ : ∀ next ∈ rest.head?, next.tag ≠ tag)
    (later : Canonical rest) :
    Canonical (⟨tag, chars⟩ :: rest) := by
  obtain ⟨c, others, rfl⟩ := List.exists_cons_of_ne_nil nonempty
  refine .cons (.run isRun all) ?_ later
  rintro next there ⟨same, _⟩
  exact differ next there same.symm

/-- An operator with a blank on both sides may stand in front of a tree. -/
theorem canonical_operator
    {level : OperatorLevel}
    (nonempty : level.operator ≠ "")
    (all : level.operator.toList.all Lexer.isOperator = true)
    (differ : ∀ next ∈ rest.head?, next.tag ≠ Tag.space)
    (later : Canonical rest) :
    Canonical (blank :: operatorLexeme level :: blank :: rest) := by
  have blanks : ∀ c ∈ [' '], isSpace c = true := List.forall_mem_singleton.mpr rfl
  have chars : level.operator.toList ≠ [] := by
    intro empty
    exact nonempty (String.toList_eq_nil_iff.mp empty)
  have second := canonical_run .space (by decide) blanks differ later
  have middle : Canonical (operatorLexeme level :: blank :: rest) := by
    refine canonical_run .operator chars (List.all_eq_true.mp all) ?_ second
    rintro next ⟨⟩
    exact (by decide : Tag.space ≠ Tag.operator)
  refine canonical_run .space (by decide) blanks ?_ middle
  rintro next ⟨⟩
  exact (by decide : Tag.operator ≠ Tag.space)

/-- The lexemes of a tree are canonical in front of everything but an integer. -/
theorem canonical_lexemesWithin
    (lexical : table.Lexical)
    (tree : LevelTree table)
    (bound : Nat)
    (differ : ∀ next ∈ rest.head?, next.tag ≠ Tag.integer)
    (later : Canonical rest) :
    Canonical (tree.lexemesWithin bound ++ rest) := by
  induction tree generalizing bound rest with
  | leaf value short =>
      exact canonical_run .integer Nat.toDigits_ne_nil Numeral.isDigit_of_mem_toDigits differ
        later
  | node place left right ihLeft ihRight =>
      obtain ⟨nonempty, all⟩ := lexical (table.get place) (List.get_mem table place)
      have inside : ∀ {rest : List Lexeme}, (∀ next ∈ rest.head?, next.tag ≠ Tag.integer) →
          Canonical rest →
          Canonical (left.lexemesWithin ((table.get place).leftBound place) ++
            blank :: operatorLexeme (table.get place) :: blank ::
              (right.lexemesWithin ((table.get place).rightBound place) ++ rest)) := by
        intro rest differ later
        refine ihLeft _ ?_ (canonical_operator nonempty all (head_lexemesWithin right _ rest)
          (ihRight _ differ later))
        rintro next ⟨⟩
        decide
      rw [lexemesWithin]
      split
      · have closed : Canonical (parenthesis ')' :: rest) := canonical_parenthesis rfl later
        have opened := inside (by rintro next ⟨⟩; decide) closed
        simpa only [List.cons_append, List.append_assoc, List.nil_append] using
          canonical_parenthesis (c := '(') rfl opened
      · simpa only [List.cons_append, List.append_assoc] using inside differ later

end Canonical

end LevelTree
end Precedence
