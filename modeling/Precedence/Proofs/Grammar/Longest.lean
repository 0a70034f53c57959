import Precedence.Proofs.Grammar.Scan

/-!
# The longest beginning that a grammar derives

Among the beginnings of some tokens that a list of levels derives, one is the longest,
unless there is none. This module finds it level by level, by the rules that a greedy
reader goes by:

* behind the last level, by the first token and, inside parentheses, by the longest
  beginning for the whole table (`longest_integer`, `longest_group`, `noBeginning_*`);
* at a level, by the longest operand, then again and again an operator of the level with
  the longest operand behind it, until none follows (`longest_level`).

The rule for a level needs its operator to be none of the operators behind it. Otherwise an
operand could go on over a separator.
-/

namespace Precedence
namespace LevelTable

/-- The levels derive the front, and nothing longer from the same tokens. -/
structure Longest (table levels : LevelTable) (front back : List Token) (expr : Expr) :
    Prop where
  derives : Derives table levels front expr
  longest : ∀ other behind expr', front ++ back = other ++ behind →
    Derives table levels other expr' → other.length ≤ front.length

/-- The levels derive no beginning of the tokens. -/
def NoBeginning (table levels : LevelTable) (tokens : List Token) : Prop :=
  ∀ front back expr, tokens = front ++ back → ¬ Derives table levels front expr

/--
Operands with a separator in front of each, each operand the longest one behind its
separator; behind them no further operand follows.
-/
inductive LongestOperands (table levels : LevelTable) (symbol : String) :
    List Token → List Operand → List Token → Prop
  | stop
      {tokens : List Token}
      (ends : ∀ separator behind, tokens = separator :: behind →
        separator.is Tag.operator symbol = true → NoBeginning table levels behind) :
      LongestOperands table levels symbol tokens [] tokens
  | more
      {separator : Token}
      {tokens back rest : List Token}
      {expr : Expr}
      {operands : List Operand}
      (separates : separator.is Tag.operator symbol = true)
      (longest : Longest table levels tokens back expr)
      (later : LongestOperands table levels symbol back operands rest) :
      LongestOperands table levels symbol (separator :: (tokens ++ back))
        (⟨separator, tokens, expr⟩ :: operands) rest

variable {table levels : LevelTable}
variable {front back rest : List Token}
variable {expr first : Expr}

section Atoms

theorem longest_integer
    {token : Token}
    {value : Int}
    (tagged : token.tag = Tag.integer)
    (reads : Numeral.read token.text = .ok value)
    (back : List Token) :
    Longest table [] [token] back (.number value) := by
  refine ⟨.integer tagged reads, ?_⟩
  intro other behind expr' same derives
  rcases derives.atom_inv with ⟨other, value', rfl, _, _, _⟩ |
    ⟨opening, inner, closing, rfl, opens, _, _⟩
  · exact Nat.le_refl 1
  · rw [List.cons_append, List.cons_append, List.cons.injEq] at same
    rw [same.1, Token.tag_of_opens opens] at tagged
    exact absurd tagged (by decide)

theorem longest_group
    {opening closing : Token}
    (opens : opening.opens = true)
    (inner : Longest table table front (closing :: back) expr)
    (closes : closing.closes = true) :
    Longest table [] (opening :: (front ++ [closing])) back expr := by
  refine ⟨.group opens inner.derives closes, ?_⟩
  intro other behind expr' same derives
  rcases derives.atom_inv with ⟨other, value', rfl, _, _, _⟩ |
    ⟨opening', inner', closing', rfl, _, derives', closes'⟩
  · simp only [List.length_cons, List.length_append]
    omega
  · simp only [List.cons_append, List.append_assoc, List.nil_append, List.cons.injEq] at same
    obtain ⟨rfl, _⟩ :=
      inner.derives.eq_of_append_eq derives' same.2 (noOperator_closing table closes back)
        (noOperator_closing table closes' behind)
    simp only [List.length_cons, List.length_append, List.length_nil, Nat.le_refl]

theorem noBeginning_nil (table : LevelTable) : NoBeginning table [] [] := by
  intro front back expr same derives
  obtain ⟨rfl, _⟩ := List.append_eq_nil_iff.mp same.symm
  rcases derives.atom_inv with ⟨_, _, ⟨⟩, _⟩ | ⟨_, _, _, ⟨⟩, _⟩

theorem noBeginning_cons
    {token : Token}
    (notInteger : token.tag ≠ Tag.integer)
    (notOpening : token.opens ≠ true)
    (rest : List Token) :
    NoBeginning table [] (token :: rest) := by
  intro front back expr same derives
  rcases derives.atom_inv with ⟨other, _, rfl, _, tagged, _⟩ |
    ⟨opening, _, _, rfl, opens, _, _⟩
  · rw [List.cons_append, List.cons.injEq] at same
    exact notInteger (same.1 ▸ tagged)
  · rw [List.cons_append, List.cons.injEq] at same
    exact notOpening (same.1 ▸ opens)

/-- A parenthesis without an expression of the whole table behind it begins nothing. -/
theorem noBeginning_opening
    {opening : Token}
    (opens : opening.opens = true)
    (none : NoBeginning table table rest) :
    NoBeginning table [] (opening :: rest) := by
  intro front back expr same derives
  rcases derives.atom_inv with ⟨other, _, rfl, _, tagged, _⟩ |
    ⟨opening', inner, closing, rfl, _, derives', _⟩
  · rw [List.cons_append, List.cons.injEq] at same
    rw [← same.1, Token.tag_of_opens opens] at tagged
    exact absurd tagged (by decide)
  · simp only [List.cons_append, List.append_assoc, List.cons.injEq] at same
    exact none inner _ _ same.2 derives'

/-- A parenthesis that is not closed behind the longest expression begins nothing. -/
theorem noBeginning_unclosed
    {opening : Token}
    (opens : opening.opens = true)
    (inner : Longest table table front back expr)
    (unclosed : ∀ closing behind, back = closing :: behind → closing.closes ≠ true) :
    NoBeginning table [] (opening :: (front ++ back)) := by
  intro other behind expr' same derives
  rcases derives.atom_inv with ⟨other, _, rfl, _, tagged, _⟩ |
    ⟨opening', inner', closing, rfl, _, derives', closes⟩
  · rw [List.cons_append, List.cons.injEq] at same
    rw [← same.1, Token.tag_of_opens opens] at tagged
    exact absurd tagged (by decide)
  · simp only [List.cons_append, List.append_assoc, List.nil_append, List.cons.injEq] at same
    have shorter := inner.longest inner' _ _ same.2 derives'
    rcases List.append_eq_append_iff.mp same.2 with ⟨between, longer, after⟩ |
      ⟨between, longer, after⟩
    · rw [longer, List.length_append] at shorter
      have empty : between = [] := List.length_eq_zero_iff.mp (by omega)
      rw [empty] at after
      exact unclosed closing behind after closes
    · cases between with
      | nil =>
          exact unclosed closing behind after.symm closes
      | cons token between =>
          rw [List.cons_append, List.cons.injEq] at after
          have longerDerives := inner.derives
          rw [longer] at longerDerives
          have operator := derives'.operator_of_longer longerDerives
          rw [← after.1] at operator
          exact noOperator_closing table closes behind closing behind rfl operator

end Atoms

section Levels

variable {level : OperatorLevel}
variable {symbol : String}
variable {front' behind tokens : List Token}
variable {first' : Expr}
variable {operands operands' : List Operand}

/-- What begins no operand begins no level. -/
theorem NoBeginning.of_operand
    (level : OperatorLevel)
    (none : NoBeginning table levels tokens) :
    NoBeginning table (level :: levels) tokens := by
  intro front back expr same derives
  obtain ⟨front', first, operands, rfl, _, head, _, _⟩ := derives.level_inv
  rw [List.append_assoc] at same
  exact none front' _ first same head

namespace LongestOperands

theorem tokens_eq
    (chain : LongestOperands table levels symbol tokens operands rest) :
    tokens = operands.flatMap Operand.all ++ rest := by
  induction chain with
  | stop _ =>
      rfl
  | more _ _ _ ih =>
      rw [List.flatMap_cons, Operand.all, ih]
      simp only [List.cons_append, List.append_assoc]

theorem separators
    (chain : LongestOperands table levels symbol tokens operands rest) :
    ∀ operand ∈ operands, operand.separator.is Tag.operator symbol = true := by
  induction chain with
  | stop _ =>
      intro operand there
      cases there
  | more separates _ _ ih =>
      intro operand there
      rcases List.mem_cons.mp there with rfl | there
      · exact separates
      · exact ih operand there

theorem tail
    (chain : LongestOperands table levels symbol tokens operands rest) :
    ∀ operand ∈ operands, Derives table levels operand.tokens operand.expr := by
  induction chain with
  | stop _ =>
      intro operand there
      cases there
  | more _ longest _ ih =>
      intro operand there
      rcases List.mem_cons.mp there with rfl | there
      · exact longest.derives
      · exact ih operand there

end LongestOperands

/--
An operand in front of a separator is the longest one from its place, since no operand
goes on over a separator.
-/
theorem Longest.eq_of_separator
    {separator : Token}
    (apart : symbol ∉ operators levels)
    (longest : Longest table levels front back first)
    (derives : Derives table levels front' first')
    (separates : separator.is Tag.operator symbol = true)
    (same : front ++ back = front' ++ separator :: behind) :
    front' = front ∧ back = separator :: behind := by
  have shorter := longest.longest front' _ first' same derives
  rcases List.append_eq_append_iff.mp same with ⟨between, longer, after⟩ |
    ⟨between, longer, after⟩
  · rw [longer, List.length_append] at shorter
    have empty : between = [] := List.length_eq_zero_iff.mp (by omega)
    rw [empty] at after longer
    exact ⟨by rw [longer, List.append_nil], after⟩
  · cases between with
    | nil =>
        exact ⟨by rw [longer, List.append_nil], after.symm⟩
    | cons token between =>
        rw [List.cons_append, List.cons.injEq] at after
        have longerDerives := longest.derives
        rw [longer] at longerDerives
        have operator := derives.operator_of_longer longerDerives
        rw [← after.1, (Token.is_iff.mp separates).2] at operator
        exact absurd operator.2 apart

/-- No operands from the same tokens are more than the longest ones. -/
theorem Longest.length_operands_le
    (apart : symbol ∉ operators levels)
    (head : Longest table levels front back first)
    (chain : LongestOperands table levels symbol back operands rest)
    (head' : Derives table levels front' first')
    (separators' : ∀ operand ∈ operands', operand.separator.is Tag.operator symbol = true)
    (tail' : ∀ operand ∈ operands', Derives table levels operand.tokens operand.expr)
    (same : front ++ back = front' ++ (operands'.flatMap Operand.all ++ behind)) :
    (front' ++ operands'.flatMap Operand.all).length ≤
      (front ++ operands.flatMap Operand.all).length := by
  induction chain generalizing front front' first first' operands' with
  | stop ends =>
      cases operands' with
      | nil =>
          simpa only [List.flatMap_nil, List.append_nil] using
            head.longest front' _ first' same head'
      | cons operand' operands' =>
          have separates := separators' operand' List.mem_cons_self
          rw [List.flatMap_cons, Operand.all, List.cons_append, List.cons_append] at same
          obtain ⟨_, after⟩ := head.eq_of_separator apart head' separates same
          rw [List.append_assoc] at after
          exact absurd (tail' operand' List.mem_cons_self)
            (ends _ _ after separates operand'.tokens _ operand'.expr rfl)
  | more separates longest later ih =>
      cases operands' with
      | nil =>
          have shorter := head.longest front' _ first' same head'
          simp only [List.flatMap_nil, List.append_nil, List.length_append]
          omega
      | cons operand' operands' =>
          have separates' := separators' operand' List.mem_cons_self
          rw [List.flatMap_cons, Operand.all, List.cons_append, List.cons_append] at same
          obtain ⟨rfl, after⟩ := head.eq_of_separator apart head' separates' same
          rw [List.append_assoc, List.cons.injEq] at after
          have shorter :=
            ih longest (tail' operand' List.mem_cons_self)
              (fun other there => separators' other (List.mem_cons_of_mem _ there))
              (fun other there => tail' other (List.mem_cons_of_mem _ there))
              after.2
          simp only [List.flatMap_cons, Operand.all, List.length_append,
            List.length_cons] at shorter ⊢
          omega

/-- The longest operands together are the longest beginning for their level. -/
theorem longest_level
    (apart : level.operator ∉ operators levels)
    (head : Longest table levels front back first)
    (chain : LongestOperands table levels level.operator back operands rest) :
    Longest table (level :: levels) (front ++ operands.flatMap Operand.all) rest
      (level.fold first (operands.map Operand.expr)) := by
  refine ⟨.level head.derives chain.separators chain.tail, ?_⟩
  intro other behind expr' same derives
  obtain ⟨front', first', operands', rfl, _, head', separators', tail'⟩ := derives.level_inv
  rw [List.append_assoc, ← chain.tokens_eq, List.append_assoc] at same
  exact head.length_operands_le apart chain head' separators' tail' same

end Levels

section Uniqueness

variable {front' back' : List Token}
variable {expr' : Expr}

/-- There is one longest beginning at most. -/
theorem Longest.unique
    (longest : Longest table levels front back expr)
    (longest' : Longest table levels front' back' expr')
    (same : front ++ back = front' ++ back') :
    front = front' ∧ back = back' := by
  have shorter := longest.longest front' back' expr' same longest'.derives
  have shorter' := longest'.longest front back expr same.symm longest.derives
  exact List.append_inj same (Nat.le_antisymm shorter' shorter)

end Uniqueness
end LevelTable
end Precedence
