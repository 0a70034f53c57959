import Mathlib.Data.List.Induction
import Precedence.Proofs.Grammar.Derivation

/-!
# Building derivations

How a list of levels derives more than the levels behind it: what they derive, and one more
operand on the side to which the first level groups.
-/

namespace Precedence
namespace LevelTable
namespace Derives

variable {table levels : LevelTable}
variable {tokens left right : List Token}
variable {expr leftExpr rightExpr : Expr}
variable {separator : Token}

/-- A single operand is derived by the level in front of it. -/
theorem of_operand
    (level : OperatorLevel)
    (derives : Derives table levels tokens expr) :
    Derives table (level :: levels) tokens expr := by
  have single := @Derives.level table level levels tokens expr [] derives (by simp) (by simp)
  rwa [List.flatMap_nil, List.append_nil, List.map_nil, level.fold_nil] at single

/-- What tighter levels derive is derived by all levels in front of them. -/
theorem of_append
    (front : LevelTable)
    (derives : Derives table levels tokens expr) :
    Derives table (front ++ levels) tokens expr := by
  induction front with
  | nil =>
      exact derives
  | cons level front ih =>
      exact ih.of_operand level

theorem of_drop
    {count other : Nat}
    (derives : Derives table (table.drop count) tokens expr)
    (fewer : other ≤ count) :
    Derives table (table.drop other) tokens expr := by
  have split : table.drop other = (table.drop other).take (count - other) ++ table.drop count := by
    have parts := List.take_append_drop (count - other) (table.drop other)
    rw [List.drop_drop, Nat.add_sub_cancel' fewer] at parts
    exact parts.symm
  rw [split]
  exact derives.of_append _

/-- A level that groups to the left takes one more operand on the right. -/
theorem append_operand
    {level : OperatorLevel}
    (toLeft : level.associativity = .left)
    (leftDerives : Derives table (level :: levels) left leftExpr)
    (separates : separator.is Tag.operator level.operator = true)
    (rightDerives : Derives table levels right rightExpr) :
    Derives table (level :: levels) (left ++ separator :: right)
      (.binary level.operation leftExpr rightExpr) := by
  cases leftDerives with
  | @level _ _ front first operands head separators tail =>
      have longer := @Derives.level table level levels front first
        (operands ++ [⟨separator, right, rightExpr⟩]) head
        (List.forall_mem_append.mpr ⟨separators, List.forall_mem_singleton.mpr separates⟩)
        (List.forall_mem_append.mpr ⟨tail, List.forall_mem_singleton.mpr rightDerives⟩)
      rw [List.map_append, List.map_cons, List.map_nil, level.fold_append toLeft] at longer
      simpa only [List.flatMap_append, List.flatMap_cons, List.flatMap_nil, List.append_nil,
        Operand.all, List.append_assoc] using longer

/-- A level that groups to the right takes one more operand on the left. -/
theorem cons_operand
    {level : OperatorLevel}
    (toRight : level.associativity = .right)
    (leftDerives : Derives table levels left leftExpr)
    (separates : separator.is Tag.operator level.operator = true)
    (rightDerives : Derives table (level :: levels) right rightExpr) :
    Derives table (level :: levels) (left ++ separator :: right)
      (.binary level.operation leftExpr rightExpr) := by
  cases rightDerives with
  | @level _ _ front first operands head separators tail =>
      have longer := @Derives.level table level levels left leftExpr
        (⟨separator, front, first⟩ :: operands) leftDerives
        (List.forall_mem_cons.mpr ⟨separates, separators⟩)
        (List.forall_mem_cons.mpr ⟨head, tail⟩)
      rw [List.map_cons, level.fold_cons toRight] at longer
      simpa only [List.flatMap_cons, Operand.all, List.cons_append, List.append_assoc] using longer

/-- All integer tokens of what is derived are numerals. -/
theorem numerals
    (derives : Derives table levels tokens expr) :
    ∀ token ∈ tokens, token.tag = Tag.integer →
      ∃ value, Numeral.read token.text = .ok value := by
  induction derives with
  | integer _ reads =>
      intro other there _
      cases List.mem_singleton.mp there
      exact ⟨_, reads⟩
  | group opens inner closes ih =>
      intro other there tagged
      rcases List.mem_cons.mp there with rfl | there
      · rw [Token.tag_of_opens opens] at tagged
        exact absurd tagged (by decide)
      rcases List.mem_append.mp there with there | there
      · exact ih other there tagged
      · cases List.mem_singleton.mp there
        rw [Token.tag_of_closes closes] at tagged
        exact absurd tagged (by decide)
  | level head separators tail ihHead ihTail =>
      intro other there tagged
      rcases List.mem_append.mp there with there | there
      · exact ihHead other there tagged
      obtain ⟨operand, isOperand, there⟩ := List.mem_flatMap.mp there
      rcases List.mem_cons.mp there with rfl | there
      · rw [(Token.is_iff.mp (separators operand isOperand)).1] at tagged
        exact absurd tagged (by decide)
      · exact ihTail operand isOperand other there tagged

/--
Derivations by one operation at a time. A level derives what the levels behind it derive, and
on the side to which it groups it derives one more operand.
-/
theorem binaryRec
    {motive : (levels : LevelTable) → (tokens : List Token) → (expr : Expr) →
      Derives table levels tokens expr → Prop}
    (integer : ∀ {token : Token} {value : Int} (tagged : token.tag = Tag.integer)
      (reads : Numeral.read token.text = .ok value),
      motive [] [token] (.number value) (.integer tagged reads))
    (group : ∀ {opening closing : Token} {tokens : List Token} {expr : Expr}
      (opens : opening.opens = true) (inner : Derives table table tokens expr)
      (closes : closing.closes = true),
      motive table tokens expr inner →
      motive [] (opening :: (tokens ++ [closing])) expr (.group opens inner closes))
    (operand : ∀ {level : OperatorLevel} {levels : LevelTable} {tokens : List Token}
      {expr : Expr} (derives : Derives table levels tokens expr),
      motive levels tokens expr derives →
      motive (level :: levels) tokens expr (derives.of_operand level))
    (toLeft : ∀ {level : OperatorLevel} {levels : LevelTable} {separator : Token}
      {left right : List Token} {leftExpr rightExpr : Expr}
      (side : level.associativity = .left)
      (leftDerives : Derives table (level :: levels) left leftExpr)
      (separates : separator.is Tag.operator level.operator = true)
      (rightDerives : Derives table levels right rightExpr),
      motive (level :: levels) left leftExpr leftDerives →
      motive levels right rightExpr rightDerives →
      motive (level :: levels) (left ++ separator :: right)
        (.binary level.operation leftExpr rightExpr)
        (leftDerives.append_operand side separates rightDerives))
    (toRight : ∀ {level : OperatorLevel} {levels : LevelTable} {separator : Token}
      {left right : List Token} {leftExpr rightExpr : Expr}
      (side : level.associativity = .right)
      (leftDerives : Derives table levels left leftExpr)
      (separates : separator.is Tag.operator level.operator = true)
      (rightDerives : Derives table (level :: levels) right rightExpr),
      motive levels left leftExpr leftDerives →
      motive (level :: levels) right rightExpr rightDerives →
      motive (level :: levels) (left ++ separator :: right)
        (.binary level.operation leftExpr rightExpr)
        (cons_operand side leftDerives separates rightDerives))
    (derives : Derives table levels tokens expr) :
    motive levels tokens expr derives := by
  induction derives with
  | integer tagged reads => exact integer tagged reads
  | group opens inner closes ih => exact group opens inner closes ih
  | @level level levels tokens first operands head separators tail ihHead ihTail =>
      have motives : ∀ operand ∈ operands,
          ∀ derives, motive levels operand.tokens operand.expr derives :=
        fun operand there _ => ihTail operand there
      clear ihTail
      generalize Derives.level head separators tail = derives
      revert derives
      cases side : level.associativity with
      | left =>
          -- The operand behind the last operator is the right one.
          induction operands using List.reverseRecOn with
          | nil =>
              rw [List.flatMap_nil, List.append_nil, List.map_nil, level.fold_nil]
              exact fun _ => operand head ihHead
          | append_singleton operands last ih =>
              have isLast := List.mem_singleton_self last
              obtain ⟨separators, separates⟩ := List.forall_mem_append.mp separators
              obtain ⟨tail, lastDerives⟩ := List.forall_mem_append.mp tail
              obtain ⟨motives, ihLast⟩ := List.forall_mem_append.mp motives
              rw [List.map_append, List.map_singleton, level.fold_append side,
                List.flatMap_append, List.flatMap_singleton, ← List.append_assoc]
              exact fun _ => toLeft side (.level head separators tail) (separates last isLast)
                (lastDerives last isLast) (ih separators tail motives _) (ihLast last isLast _)
      | right =>
          induction operands generalizing tokens first with
          | nil =>
              rw [List.flatMap_nil, List.append_nil, List.map_nil, level.fold_nil]
              exact fun _ => operand head ihHead
          | cons next operands ih =>
              obtain ⟨separates, separators⟩ := List.forall_mem_cons.mp separators
              obtain ⟨nextDerives, tail⟩ := List.forall_mem_cons.mp tail
              obtain ⟨ihNext, motives⟩ := List.forall_mem_cons.mp motives
              rw [List.map_cons, level.fold_cons side, List.flatMap_cons, Operand.all,
                List.cons_append]
              exact fun _ => toRight side head separates (.level nextDerives separators tail)
                ihHead (ih nextDerives separators tail (ihNext _) motives _)

end Derives
end LevelTable
end Precedence
