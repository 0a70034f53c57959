import Mathlib
import Precedence.Proofs.Arithmetic.RoundTrip
import Precedence.Proofs.LevelTable.Checking
import Precedence.Proofs.Token.Expression

/-!
# Which levels of a table can be used

The operator of a level is checked by what a grammar would see of it, which leaves out blanks.
So an operator that is accepted is a run of operator characters, perhaps with blanks around it.
Without blanks it is found in a text again, and its level makes a node of two integers. With
blanks it is the text of no token, so its level never matches (`usable_iff`).
-/

namespace Precedence

open Lexer LevelTable Arithmetic

/-- The operator is one token, and between two integers it makes the node of the level. -/
structure OperatorLevel.Usable (table : LevelTable) (file : String) (level : OperatorLevel) :
    Prop where
  lexes : ∃ token,
    printableTokens file level.operator = .ok [token] ∧
    token.is Tag.operator level.operator = true
  parses : ∃ node,
    parseText table file ("1" ++ level.operator ++ "2") = .ok node ∧
    node.expr? = some (.binary level.operation (.number 1) (.number 2))

namespace Lexer

variable {file text source : String}
variable {token : Token}
variable {found : List Token}

/-- The text of a token that a grammar sees is this one token again. -/
theorem printableTokens_text
    (file : String)
    (formed : (lexemeOf token).Formed)
    (printable : (lexemeOf token).isPrintable = true) :
    ∃ again,
      printableTokens file token.text = .ok [again] ∧ lexemeOf again = lexemeOf token := by
  have canonical : Canonical [lexemeOf token] := .cons formed (by simp) .nil
  obtain ⟨tokens, lexes, spelled, _⟩ := printableTokens_of_canonical file canonical
  rw [List.filter_cons_of_pos printable, List.filter_nil] at spelled
  obtain ⟨again, rfl, same⟩ := List.map_eq_singleton_iff.mp spelled
  refine ⟨again, ?_, same⟩
  rw [← lexes]
  simp [lexemeOf]

/-- An operator that is the text of a token has no blanks. -/
theorem all_isOperator_of_mem
    (checked : LevelTable.isOperator token.text = true)
    (lexes : printableTokens file source = .ok found)
    (there : token ∈ found) :
    ∀ c ∈ token.text.toList, isOperator c = true := by
  obtain ⟨formed, printable⟩ := formed_of_mem_printableTokens lexes there
  obtain ⟨again, alone, same⟩ := printableTokens_text operatorFile formed printable
  rw [LevelTable.isOperator, alone] at checked
  have tagged : (lexemeOf token).tag = Tag.operator := by
    rw [← same]
    exact beq_iff_eq.mp checked
  exact formed.all_inClass .operator tagged

end Lexer

namespace Arithmetic

variable {table : LevelTable}
variable {level : OperatorLevel}
variable {file : String}

theorem isOperator_empty : LevelTable.isOperator "" = false := by
  cbv

theorem formed_operator
    (checked : LevelTable.isOperator level.operator = true)
    (plain : ∀ c ∈ level.operator.toList, Lexer.isOperator c = true) :
    Lexeme.Formed (LevelTree.operatorLexeme level) := by
  unfold LevelTree.operatorLexeme
  cases chars : level.operator.toList with
  | nil =>
      rw [String.toList_eq_nil_iff.mp chars, isOperator_empty] at checked
      cases checked
  | cons c rest => exact .run .operator (chars ▸ plain)

theorem lexes_operator
    (file : String)
    (formed : Lexeme.Formed (LevelTree.operatorLexeme level)) :
    ∃ token,
      printableTokens file level.operator = .ok [token] ∧
      token.is Tag.operator level.operator = true := by
  have canonical : Canonical [LevelTree.operatorLexeme level] := .cons formed (by simp) .nil
  obtain ⟨tokens, lexes, spelled, _⟩ := printableTokens_of_canonical file canonical
  obtain ⟨token, rfl, same⟩ := List.map_eq_singleton_iff.mp spelled
  refine ⟨token, ?_, ?_⟩
  · rw [← lexes]
    simp [LevelTree.operatorLexeme]
  · have is := LevelTree.is_of_lexemeOf same
    rwa [String.ofList_toList] at is

/-- Between two integers an operator without blanks makes the node of its level. -/
theorem parses_operator
    (distinct : table.Distinct)
    (among : level ∈ table)
    (file : String)
    (formed : Lexeme.Formed (LevelTree.operatorLexeme level)) :
    ∃ node,
      parseText table file ("1" ++ level.operator ++ "2") = .ok node ∧
      node.expr? = some (.binary level.operation (.number 1) (.number 2)) := by
  obtain ⟨place, rfl⟩ := List.get_of_mem among
  -- The tree is printed with blanks around the operator, but a grammar sees none of them.
  let tree : LevelTree table := .node place (.leaf 1 (by decide)) (.leaf 2 (by decide))
  let one : Lexeme := ⟨Tag.integer, ['1']⟩
  let two : Lexeme := ⟨Tag.integer, ['2']⟩
  have isOne : one.Formed := .run .integer (List.forall_mem_singleton.mpr rfl)
  have isTwo : two.Formed := .run .integer (List.forall_mem_singleton.mpr rfl)
  have canonical : Canonical [one, LevelTree.operatorLexeme (table.get place), two] := by
    refine .cons isOne ?_ (.cons formed ?_ (.cons isTwo (by simp) .nil))
    · rintro _ ⟨⟩ ⟨same, _⟩
      exact absurd same (by decide : Tag.integer ≠ Tag.operator)
    · rintro _ ⟨⟩ ⟨same, _⟩
      exact absurd same (by decide : Tag.operator ≠ Tag.integer)
  obtain ⟨tokens, lexes, spelled, inFile⟩ := printableTokens_of_canonical file canonical
  have written : String.ofList (charsOf [one, LevelTree.operatorLexeme (table.get place), two]) =
      "1" ++ (table.get place).operator ++ "2" := by
    apply String.toList_injective
    simp [one, two, LevelTree.operatorLexeme]
  have derives : Derives table table tokens tree.expr := by
    have ofTree := LevelTree.derives_of_spelled tree 0 (Nat.zero_le _) spelled
    rwa [List.drop_zero] at ofTree
  have readable : Readable nestingLimit tokens := by
    refine ⟨?_, derives.numerals, ?_⟩
    · intro s isToken t isToken'
      rw [inFile s isToken, inFile t isToken']
    · intro front isFront
      have three : tokens.length = 3 := by
        rw [← List.length_map lexemeOf, spelled]
        rfl
      have opened := List.countP_le_length (p := Token.opens) (l := front)
      have within := isFront.length_le
      have few : 3 ≤ nestingLimit := by decide
      omega
  obtain ⟨node, parses, denotes⟩ := (parseWithin_denotes_iff distinct file readable _).mpr derives
  refine ⟨node, ?_, denotes⟩
  rw [parseText, Arithmetic.tokens, ← written, lexes]
  exact parses

/--
Of an accepted table just those levels can be used whose operators have no blanks. Any other
operator is the text of no token, so that its level never matches.
-/
theorem usable_iff
    (depth : Nat)
    (location : Location)
    (document : Datum)
    (table : LevelTable)
    (level : OperatorLevel)
    (accepted : tableOfDocument depth location document = .ok table)
    (among : level ∈ table) :
    ((∀ file, level.Usable table file) ↔
      ∀ c ∈ level.operator.toList, Lexer.isOperator c = true) ∧
    ((∃ c ∈ level.operator.toList, Lexer.isOperator c = false) →
      ∀ file text found, printableTokens file text = .ok found →
        ∀ token ∈ found, token.text ≠ level.operator) := by
  obtain ⟨each, distinct⟩ := ofDocument_ok_inv (Parser.mapError_inv accepted)
  have checked := each level among
  have plain_of_mem : ∀ {file text found token}, printableTokens file text = .ok found →
      token ∈ found → token.text = level.operator →
      ∀ c ∈ level.operator.toList, Lexer.isOperator c = true := by
    intro file text found token lexes there same
    rw [← same] at checked ⊢
    exact all_isOperator_of_mem checked lexes there
  refine ⟨⟨?_, ?_⟩, ?_⟩
  · intro usable
    obtain ⟨token, lexes, is⟩ := (usable "").lexes
    exact plain_of_mem lexes List.mem_cons_self (Token.is_iff.mp is).2
  · intro plain file
    have formed := formed_operator checked plain
    exact ⟨lexes_operator file formed, parses_operator distinct among file formed⟩
  · rintro ⟨c, there, blank⟩ file text found lexes token inFound same
    have plain := plain_of_mem lexes inFound same c there
    rw [blank] at plain
    cases plain

/-- Of two accepted levels, one of which has a blank in its operator, the other can be used. -/
theorem usable_iff_minus :
    let document : Datum := .mapping [(.text "levels", .list [
      .mapping [(.text "operator", .text " +"), (.text "node", .text "Addition")],
      .mapping [(.text "operator", .text "-"), (.text "node", .text "Subtraction")]])]
    let plus : OperatorLevel := ⟨" +", .addition, .left⟩
    let minus : OperatorLevel := ⟨"-", .subtraction, .left⟩
    tableOfDocument 100 (.startOf "table") document = .ok [plus, minus] ∧
    (∀ file, minus.Usable [plus, minus] file) ∧
    ∀ file text found, printableTokens file text = .ok found →
      ∀ token ∈ found, token.text ≠ " +" := by
  intro document plus minus
  have accepted : tableOfDocument 100 (.startOf "table") document = .ok [plus, minus] := by
    cbv
  have ofPlus := usable_iff _ _ document [plus, minus] plus accepted (by simp)
  have ofMinus := usable_iff _ _ document [plus, minus] minus accepted (by simp)
  exact ⟨accepted, ofMinus.1.mpr (List.all_eq_true.mp (by decide)), ofPlus.2 ⟨' ', by decide, by decide⟩⟩

/-- The operator of an accepted level may be the text of no token, and make no node. -/
theorem unusable_plus :
    let document : Datum := .mapping [(.text "levels", .list [
      .mapping [(.text "operator", .text " +"), (.text "node", .text "Addition")]])]
    let plus : OperatorLevel := ⟨" +", .addition, .left⟩
    tableOfDocument 100 (.startOf "table") document = .ok [plus] ∧
    (∃ place, tokens "test" " +" = .ok [⟨"+", Tag.operator, place⟩]) ∧
    parseText [plus] "test" ("1" ++ plus.operator ++ "2") =
      .error (syntaxProblem (.ofPositions "test" ⟨1, 3⟩ ⟨1, 4⟩)
        "found garbage at end of file") := by
  intro document plus
  refine ⟨?_, ⟨.ofPositions "test" ⟨1, 2⟩ ⟨1, 3⟩, ?_⟩, ?_⟩
  · cbv
  · cbv
  · cbv

end Arithmetic
end Precedence
