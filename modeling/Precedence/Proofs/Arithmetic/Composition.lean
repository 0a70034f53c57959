import Mathlib.Data.List.Forall2
import Precedence.Arithmetic
import Precedence.Proofs.Grammar.Derivation
import Precedence.Proofs.Level.Wiring

/-!
# The grammar that a table composes

Composing the levels of a table never faults. What comes out is `parserOf`, a recursion over
the table, and one definition: a call of the forward parser is a run of `parserOf` with one
call less to open.

The nodes that the levels combine denote what the operands denote together, provided that
all of them were read from one file (`Node.Denotes`).
-/

namespace Precedence
namespace Arithmetic

/-- Behind all operators: an integer, or the whole grammar in parentheses. -/
def atom : ExprParser Node :=
  integer.orElse
    ((((Parser.reserved Tag.reserved "(").keepRight (.forward ())).keepLeft
      (.reserved Tag.reserved ")")).orElse Level.bottom)

/-- The parser of a level, given the parser of the tighter ones. -/
def levelParser (level : OperatorLevel) (next : ExprParser Node) : ExprParser Node :=
  match level.associativity with
  | .left =>
      next.leftRec ((operator level.operator).keepRight next) fun left right _ =>
        combine level.operation left right
  | .right =>
      (next.rep1Sep (operator level.operator)).process fun operands _ =>
        Level.reduceRight (combine level.operation) operands

/-- The parser of some levels of a table, loosest binding first. -/
def parserOf (levels : LevelTable) : ExprParser Node :=
  levels.foldr levelParser atom

/-- The only forward parser is the whole grammar of the table. -/
def definitions (table : LevelTable) : Definitions Unit Node Action :=
  fun _ => some (parserOf table)

/-- What a call of the forward parser does, where so many calls may be open at once. -/
def call (table : LevelTable) (limit : Nat) : Unit → Reader → Action (Result Node) :=
  Parser.callForward (definitions table) limit

variable {table : LevelTable}
variable {reader : Reader}

theorem operatorLevel_eq
    (level : OperatorLevel)
    (top next : ExprParser Node) :
    operatorLevel level top (some next) = .ok (some (levelParser level next)) := by
  unfold operatorLevel levelParser
  cases level.associativity <;> rfl

/-- The levels of a table are wired to its parser. -/
theorem wires_levels (table : LevelTable) :
    Level.Wires (.forward ()) (some Level.bottom) (levels table) (some (parserOf table)) := by
  induction table with
  | nil => exact .cons (.cons .nil rfl) rfl
  | cons level table ih => exact .cons ih (operatorLevel_eq level _ _)

/-- Composing the levels of a table gives its parser, and defines the forward parser so. -/
theorem grammar_eq (table : LevelTable) :
    grammar table = .ok ⟨parserOf table, definitions table⟩ := by
  have composition : Level.Composition .empty () (some Level.bottom) (levels table) _ :=
    .grammar (wires_levels table)
  exact congrArg Prod.snd (composition.composeWith_eq rfl)

/-- A run over a whole list of tokens is a run of the phrase of the table's parser. -/
theorem run_eq
    (limit : Nat)
    (table : LevelTable)
    (reader : Reader) :
    run limit table reader =
      Parser.runWith (call table limit) (.phrase (parserOf table)) reader := by
  unfold run
  rw [grammar_eq]
  rfl

/-- A call runs the table's parser, with one call less that may be opened. -/
theorem call_succ
    (table : LevelTable)
    (limit : Nat)
    (reader : Reader) :
    call table (limit + 1) () reader =
      Parser.runWith (call table limit) (parserOf table) reader :=
  rfl

end Arithmetic

/-- The node denotes the expression, and it was read from the file. -/
structure Node.Denotes (file : String) (node : Node) (expr : Expr) : Prop where
  expr_eq : node.expr? = some expr
  located : node.location.fileName = file

namespace Arithmetic

variable {file : String}
variable {operation : Operation}

/-- Two nodes of one file are combined to a node of this file. -/
theorem combine_denotes
    {left right : Node}
    {leftExpr rightExpr : Expr}
    (operation : Operation)
    (leftDenotes : left.Denotes file leftExpr)
    (rightDenotes : right.Denotes file rightExpr) :
    ∃ node,
      combine operation left right = pure node ∧
      node.Denotes file (.binary operation leftExpr rightExpr) := by
  obtain ⟨location, covered, inFile⟩ :=
    Location.exists_combine? leftDenotes.located rightDenotes.located
  refine ⟨.binary (some operation) left right location, ?_, ?_, inFile⟩
  · unfold combine Parser.cover
    rw [covered]
    rfl
  · rw [Node.expr?, leftDenotes.expr_eq, rightDenotes.expr_eq]
    rfl

/-- Combining from the left denotes the expression that is folded from the left. -/
theorem foldlM_combine_denotes
    {first : Node}
    {firstExpr : Expr}
    {nodes : List Node}
    {exprs : List Expr}
    (firstDenotes : first.Denotes file firstExpr)
    (restDenotes : List.Forall₂ (Node.Denotes file) nodes exprs) :
    ∃ node,
      nodes.foldlM (combine operation) first = pure node ∧
      node.Denotes file (exprs.foldl (.binary operation) firstExpr) := by
  induction restDenotes generalizing first firstExpr with
  | nil =>
      exact ⟨first, rfl, firstDenotes⟩
  | cons nextDenotes _ ih =>
      obtain ⟨combined, combines, combinedDenotes⟩ := combine_denotes operation firstDenotes nextDenotes
      obtain ⟨node, folds, nodeDenotes⟩ := ih combinedDenotes
      refine ⟨node, ?_, nodeDenotes⟩
      rw [List.foldlM_cons, combines, pure_bind, folds]

/-- Combining from the right denotes the expression that is folded from the right. -/
theorem reduceRight_combine_denotes
    {first : Node}
    {firstExpr : Expr}
    {nodes : List Node}
    {exprs : List Expr}
    (firstDenotes : first.Denotes file firstExpr)
    (restDenotes : List.Forall₂ (Node.Denotes file) nodes exprs) :
    ∃ node,
      Level.reduceRight (combine operation) (first :: nodes) = pure node ∧
      node.Denotes file (Level.foldRight (.binary operation) firstExpr exprs) := by
  induction restDenotes generalizing first firstExpr with
  | nil =>
      exact ⟨first, rfl, firstDenotes⟩
  | cons nextDenotes _ ih =>
      obtain ⟨rest, reduces, tailDenotes⟩ := ih nextDenotes
      obtain ⟨node, combines, nodeDenotes⟩ := combine_denotes operation firstDenotes tailDenotes
      refine ⟨node, ?_, nodeDenotes⟩
      rw [Level.reduceRight, reduces, pure_bind, combines]
      simp

end Arithmetic
end Precedence
