import Precedence.Proofs.Arithmetic.Acceptance
import Precedence.Proofs.Arithmetic.Printing
import Precedence.Proofs.Grammar.Building
import Precedence.Proofs.Node.Equality
import Precedence.Proofs.Token.Parentheses

/-!
# Parsing undoes printing

The tokens of a printed tree derive the expression of the tree, at every level that is not
tighter than the bound it was printed with (`derives_of_spelled`). As the lexer finds these
tokens in the text and the parser accepts exactly what is derived, parsing the text of a tree
gives the tree back (`parseText_text`).
-/

namespace Precedence
namespace LevelTree

open Lexer LevelTable

variable {table : LevelTable}
variable {tokens : List Token}

theorem is_of_lexemeOf
    {token : Token}
    {tag : Tag}
    {chars : List Char}
    (same : lexemeOf token = ⟨tag, chars⟩) :
    token.is tag (String.ofList chars) = true := by
  rw [← is_comp_lexemeOf, Function.comp_apply, same]
  simp only [Lexeme.is, beq_self_eq_true, Bool.and_self]

theorem isPrintable_blank : blank.isPrintable = false := by
  decide

theorem isPrintable_parenthesis
    (c : Char) :
    (parenthesis c).isPrintable = true :=
  rfl

theorem isPrintable_operatorLexeme
    (level : OperatorLevel) :
    (operatorLexeme level).isPrintable = true :=
  rfl

/-- What may stand on the sides of an operator derives a level's expression with it. -/
theorem derives_node
    {place : Fin table.length}
    {left right : List Token}
    {separator : Token}
    {leftExpr rightExpr : Expr}
    (leftDerives :
      Derives table (table.drop ((table.get place).leftBound place)) left leftExpr)
    (separates : separator.is Tag.operator (table.get place).operator = true)
    (rightDerives :
      Derives table (table.drop ((table.get place).rightBound place)) right rightExpr) :
    Derives table (table.drop place) (left ++ separator :: right)
      (.binary (table.get place).operation leftExpr rightExpr) := by
  have split : table.drop place = table.get place :: table.drop (place + 1) :=
    List.drop_eq_getElem_cons place.isLt
  cases side : (table.get place).associativity with
  | left =>
      have onLeft : (table.get place).leftBound place = place := by
        rw [OperatorLevel.leftBound, side]
      have onRight : (table.get place).rightBound place = place + 1 := by
        rw [OperatorLevel.rightBound, side]
      rw [onLeft, split] at leftDerives
      rw [onRight] at rightDerives
      rw [split]
      exact leftDerives.append_operand side separates rightDerives
  | right =>
      have onLeft : (table.get place).leftBound place = place + 1 := by
        rw [OperatorLevel.leftBound, side]
      have onRight : (table.get place).rightBound place = place := by
        rw [OperatorLevel.rightBound, side]
      rw [onLeft] at leftDerives
      rw [onRight, split] at rightDerives
      rw [split]
      exact Derives.cons_operand side leftDerives separates rightDerives

/-- Tokens with the lexemes of a tree derive its expression at the bound. -/
theorem derives_of_spelled
    (tree : LevelTree table)
    (bound : Nat)
    (within : bound ≤ table.length)
    (spelled : tokens.map lexemeOf =
      (tree.lexemesWithin bound).filter Lexeme.isPrintable) :
    Derives table (table.drop bound) tokens tree.expr := by
  induction tree generalizing bound tokens with
  | leaf value short =>
      obtain ⟨token, rfl, same⟩ := List.map_eq_singleton_iff.mp spelled
      obtain ⟨tagged, text⟩ := Token.is_iff.mp (is_of_lexemeOf same)
      have reads : Numeral.read token.text = .ok value := by
        rw [text, ← Numeral.decimal_natCast]
        exact Numeral.read_decimal short
      have atom : Derives table (table.drop table.length) [token] (.number value) := by
        rw [List.drop_length]
        exact .integer tagged reads
      exact atom.of_drop within
  | node place left right ihLeft ihRight =>
      have leftWithin : (table.get place).leftBound place ≤ table.length := by
        unfold OperatorLevel.leftBound
        split <;> omega
      have rightWithin : (table.get place).rightBound place ≤ table.length := by
        unfold OperatorLevel.rightBound
        split <;> omega
      have inside : ∀ {tokens : List Token},
          tokens.map lexemeOf =
            (left.lexemesWithin ((table.get place).leftBound place)).filter Lexeme.isPrintable ++
              operatorLexeme (table.get place) ::
                (right.lexemesWithin ((table.get place).rightBound place)).filter
                  Lexeme.isPrintable →
          Derives table (table.drop place) tokens (expr (.node place left right)) := by
        intro tokens spelled
        obtain ⟨front, behind, rfl, leftSpelled, spelled⟩ := List.map_eq_append_iff.mp spelled
        obtain ⟨separator, back, rfl, same, rightSpelled⟩ := List.map_eq_cons_iff.mp spelled
        have separates := is_of_lexemeOf same
        rw [String.ofList_toList] at separates
        exact derives_node (ihLeft _ leftWithin leftSpelled) separates
          (ihRight _ rightWithin rightSpelled)
      by_cases loose : place < bound
      · simp only [lexemesWithin, if_pos loose, List.filter_append, List.filter_cons,
          List.filter_nil, isPrintable_blank, isPrintable_parenthesis,
          isPrintable_operatorLexeme, if_true, if_false, Bool.false_eq_true] at spelled
        obtain ⟨opening, behind, rfl, opens, spelled⟩ := List.map_eq_cons_iff.mp spelled
        obtain ⟨middle, last, rfl, middleSpelled, spelled⟩ := List.map_eq_append_iff.mp spelled
        obtain ⟨closing, rfl, closes⟩ := List.map_eq_singleton_iff.mp spelled
        have whole := (inside middleSpelled).of_drop (Nat.zero_le place)
        rw [List.drop_zero] at whole
        have atom : Derives table (table.drop table.length) (opening :: (middle ++ [closing]))
            (expr (.node place left right)) := by
          rw [List.drop_length]
          exact .group (is_of_lexemeOf opens) whole (is_of_lexemeOf closes)
        exact atom.of_drop within
      · simp only [lexemesWithin, if_neg loose, List.filter_append, List.filter_cons,
          isPrintable_blank, isPrintable_operatorLexeme, if_true, if_false,
          Bool.false_eq_true] at spelled
        exact (inside spelled).of_drop (Nat.le_of_not_lt loose)

theorem canonical_lexemes
    (lexical : table.Lexical)
    (tree : LevelTree table) :
    Canonical (tree.lexemesWithin 0) := by
  have canonical := @canonical_lexemesWithin table [] lexical tree 0 (by simp) .nil
  rwa [List.append_nil] at canonical

theorem text_eq
    (tree : LevelTree table) :
    tree.text = String.ofList (charsOf (tree.lexemesWithin 0)) := by
  rw [← toList_textWithin, String.ofList_toList, text]

/-- The tokens of the text of a tree can be read, and they derive its expression. -/
theorem exists_tokens
    {limit : Nat}
    (lexical : table.Lexical)
    (tree : LevelTree table)
    (fileName : String)
    (nests : NestsWithin (· == '(') (· == ')') limit tree.text.toList) :
    ∃ tokens,
      Arithmetic.tokens fileName tree.text = .ok tokens ∧
      Readable limit tokens ∧ Derives table table tokens tree.expr := by
  have canonical := tree.canonical_lexemes lexical
  obtain ⟨tokens, lexes, spelled, inFile⟩ := printableTokens_of_canonical fileName canonical
  rw [← text_eq] at lexes
  rw [text, toList_textWithin] at nests
  have derives := derives_of_spelled tree 0 (Nat.zero_le _) spelled
  rw [List.drop_zero] at derives
  refine ⟨tokens, ?_, ⟨?_, derives.numerals, ?_⟩, derives⟩
  · rw [Arithmetic.tokens, lexes]
    rfl
  · intro s isToken t isToken'
    rw [inFile s isToken, inFile t isToken']
  · exact nestsWithin_of_charsOf canonical.formed spelled nests

end LevelTree

namespace Arithmetic

/--
Parsing the text of a tree gives back a tree that denotes the same expression, and so equals
every tree that does.
-/
theorem parseText_text
    (table : LevelTable)
    (distinct : table.Distinct)
    (lexical : table.Lexical)
    (tree : LevelTree table)
    (fileName : String)
    (nests : NestsWithin (· == '(') (· == ')') nestingLimit tree.text.toList) :
    ∃ node,
      parseText table fileName tree.text = .ok node ∧
      node.expr? = some tree.expr ∧
      ∀ original : Node, original.expr? = some tree.expr → node.equal original = true := by
  obtain ⟨tokens, lexes, readable, derives⟩ := tree.exists_tokens lexical fileName nests
  obtain ⟨node, parses, denotes⟩ :=
    (parseWithin_denotes_iff distinct fileName readable tree.expr).mpr derives
  refine ⟨node, ?_, denotes, ?_⟩
  · rw [parseText, lexes]
    exact parses
  · intro original same
    exact (Node.equal_iff denotes same).mpr rfl

/-- A difference on the right of another one keeps its parentheses. -/
theorem parseText_text_minus :
    let table : LevelTable := [⟨"-", .subtraction, .left⟩, ⟨"^", .exponentiation, .right⟩]
    ∃ tree : LevelTree table,
      tree.text = "1 - (2 - 3 ^ 4)" ∧
      ∃ node,
        parseText table "sum" tree.text = .ok node ∧ node.expr? = some tree.expr := by
  intro table
  let tree : LevelTree table :=
    .node ⟨0, by decide⟩ (.leaf 1 (by decide))
      (.node ⟨0, by decide⟩ (.leaf 2 (by decide))
        (.node ⟨1, by decide⟩ (.leaf 3 (by decide)) (.leaf 4 (by decide))))
  have written : tree.text = "1 - (2 - 3 ^ 4)" := by
    rfl
  have lexical : table.Lexical := by
    unfold LevelTable.Lexical
    decide
  have nests : NestsWithin (· == '(') (· == ')') nestingLimit tree.text.toList := by
    rw [written]
    decide
  obtain ⟨node, parses, denotes, _⟩ :=
    parseText_text table (by decide) lexical tree "sum" nests
  exact ⟨tree, written, node, parses, denotes⟩

end Arithmetic
end Precedence
