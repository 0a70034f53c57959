import Precedence.Proofs.Grammar.Derivation

/-!
# Scanning what a grammar derives

A scan reads tokens with no more memory than the number of open parentheses and whether an
operand comes next. It accepts all that some levels derive, and the operators that it
accepts outside parentheses are those of the levels. As the scan is a function of the
tokens, it tells how two derivations from the same tokens lie to each other: where one of
them ends and the other one goes on, an operator of the levels follows.

* `Derives.scan_eq`: the scan accepts what is derived.
* `Derives.eq_of_append_eq`: two derivations that stop in front of something else than an
  operator of the levels stop at the same place.
* `Derives.unique`: with distinct operators, tokens derive at most one expression.
-/

namespace Precedence
namespace LevelTable

/-- Where a scan stands: in front of an operand or behind it, in so many parentheses. -/
inductive ScanState where
  | before (depth : Nat)
  | behind (depth : Nat)

/-- One token further. The given operators may follow an operand outside parentheses. -/
def scanStep (operators : List String) : ScanState → Token → Option ScanState
  | .before depth, token =>
      if token.tag = Tag.integer then some (.behind depth)
      else if token.opens then some (.before (depth + 1))
      else none
  | .behind depth, token =>
      if token.tag = Tag.operator ∧ (depth = 0 → token.text ∈ operators) then
        some (.before depth)
      else if token.closes ∧ 0 < depth then some (.behind (depth - 1))
      else none

/-- A whole list of tokens further. -/
def scan (operators : List String) (state : ScanState) (tokens : List Token) :
    Option ScanState :=
  tokens.foldlM (scanStep operators) state

/-- The operators of some levels. -/
def operators (levels : LevelTable) : List String :=
  levels.map OperatorLevel.operator

variable {table levels : LevelTable}
variable {tokens tokens' back back' : List Token}
variable {expr expr' : Expr}

theorem scan_append
    (symbols : List String)
    (state : ScanState)
    (front back : List Token) :
    scan symbols state (front ++ back) =
      (scan symbols state front).bind fun middle => scan symbols middle back := by
  unfold scan
  rw [List.foldlM_append]
  rfl

theorem scan_cons
    (symbols : List String)
    (state : ScanState)
    (token : Token)
    (back : List Token) :
    scan symbols state (token :: back) =
      (scanStep symbols state token).bind fun middle => scan symbols middle back := by
  unfold scan
  rw [List.foldlM_cons]
  rfl

/-- Behind an operand and outside parentheses only the operators go on. -/
theorem operator_of_scanStep
    {symbols : List String}
    {token : Token}
    {state : ScanState}
    (step : scanStep symbols (.behind 0) token = some state) :
    token.tag = Tag.operator ∧ token.text ∈ symbols := by
  simp only [scanStep, true_implies, Nat.lt_irrefl, and_false, if_false] at step
  split at step
  · assumption
  · cases step

theorem scan_opening
    {symbols : List String}
    {token : Token}
    (depth : Nat)
    (opens : token.opens = true) :
    scanStep symbols (.before depth) token = some (.before (depth + 1)) := by
  have other : token.tag ≠ Tag.integer := by
    rw [Token.tag_of_opens opens]
    decide
  rw [scanStep, if_neg other, if_pos opens]

theorem scan_closing
    {symbols : List String}
    {token : Token}
    (depth : Nat)
    (closes : token.closes = true) :
    scanStep symbols (.behind (depth + 1)) token = some (.behind depth) := by
  have other : token.tag ≠ Tag.operator := by
    rw [Token.tag_of_closes closes]
    decide
  rw [scanStep, if_neg (fun both => other both.1), if_pos ⟨closes, Nat.succ_pos depth⟩,
    Nat.add_sub_cancel]

theorem scan_separator
    {symbols : List String}
    {token : Token}
    {symbol : String}
    (depth : Nat)
    (separates : token.is Tag.operator symbol = true)
    (among : depth = 0 → symbol ∈ symbols) :
    scanStep symbols (.behind depth) token = some (.before depth) := by
  obtain ⟨tagged, text⟩ := Token.is_iff.mp separates
  rw [scanStep, if_pos ⟨tagged, fun outside => text ▸ among outside⟩]

namespace Derives

/-- At any depth the scan goes from in front of what is derived to behind it. -/
theorem scan_eq
    (derives : Derives table levels tokens expr)
    (symbols : List String)
    (depth : Nat)
    (among : depth = 0 → ∀ level ∈ levels, level.operator ∈ symbols) :
    scan symbols (.before depth) tokens = some (.behind depth) := by
  induction derives generalizing depth with
  | integer tagged reads =>
      rw [scan_cons, scanStep, if_pos tagged]
      rfl
  | @group opening closing tokens expr opens inner closes ih =>
      have inside := ih (depth + 1) (fun outside => absurd outside (Nat.succ_ne_zero depth))
      rw [scan_cons, scan_opening depth opens, Option.bind_some, scan_append, inside,
        Option.bind_some, scan_cons, scan_closing depth closes]
      rfl
  | @level level levels tokens first operands head separators tail ihHead ihTail =>
      have here : depth = 0 → level.operator ∈ symbols :=
        fun outside => among outside level (List.mem_cons_self)
      have later : depth = 0 → ∀ level ∈ levels, level.operator ∈ symbols :=
        fun outside other there => among outside other (List.mem_cons_of_mem _ there)
      rw [scan_append, ihHead depth later, Option.bind_some]
      clear head ihHead
      induction operands with
      | nil =>
          rfl
      | cons operand operands ih =>
          have separates := separators operand List.mem_cons_self
          have scanned := ihTail operand List.mem_cons_self depth later
          rw [List.flatMap_cons, scan_append, Operand.all, scan_cons,
            scan_separator depth separates here, Option.bind_some, scanned,
            Option.bind_some]
          exact ih
            (fun other there => separators other (List.mem_cons_of_mem _ there))
            (fun other there => tail other (List.mem_cons_of_mem _ there))
            (fun other there => ihTail other (List.mem_cons_of_mem _ there))

/-- Where what is derived goes on, an operator of the levels follows. -/
theorem operator_of_longer
    {token : Token}
    (derives : Derives table levels tokens expr)
    (longer : Derives table levels (tokens ++ token :: back) expr') :
    token.tag = Tag.operator ∧ token.text ∈ operators levels := by
  have among : ∀ level ∈ levels, level.operator ∈ operators levels :=
    fun level there => List.mem_map_of_mem there
  have first := derives.scan_eq (operators levels) 0 (fun _ => among)
  have second := longer.scan_eq (operators levels) 0 (fun _ => among)
  rw [scan_append, first, Option.bind_some, scan_cons] at second
  obtain ⟨state, step, _⟩ := Option.bind_eq_some_iff.mp second
  exact operator_of_scanStep step

/-- No expression is derived from no tokens. -/
theorem length_pos
    (derives : Derives table levels tokens expr) :
    0 < tokens.length := by
  apply List.length_pos_iff.mpr
  rintro rfl
  have among : ∀ level ∈ levels, level.operator ∈ operators levels :=
    fun level there => List.mem_map_of_mem there
  cases derives.scan_eq (operators levels) 0 (fun _ => among)

end Derives

/-- The tokens do not begin with an operator of the levels. -/
def NoOperator (levels : LevelTable) (tokens : List Token) : Prop :=
  ∀ token back, tokens = token :: back →
    ¬ (token.tag = Tag.operator ∧ token.text ∈ operators levels)

theorem noOperator_closing
    {closing : Token}
    (levels : LevelTable)
    (closes : closing.closes = true)
    (back : List Token) :
    NoOperator levels (closing :: back) := by
  rintro token back' ⟨⟩ ⟨tagged, _⟩
  rw [Token.tag_of_closes closes] at tagged
  exact absurd tagged (by decide)

theorem noOperator_operands
    {symbol : String}
    {operands : List Operand}
    (apart : symbol ∉ operators levels)
    (separators : ∀ operand ∈ operands, operand.separator.is Tag.operator symbol = true) :
    NoOperator levels (operands.flatMap Operand.all) := by
  intro token back same
  rintro ⟨_, among⟩
  cases operands with
  | nil =>
      cases same
  | cons operand operands =>
      have separates := Token.is_iff.mp (separators operand List.mem_cons_self)
      rw [List.flatMap_cons, Operand.all, List.cons_append] at same
      cases same
      rw [separates.2] at among
      exact apart among

namespace Derives

/-- Two derivations in front of no operator of the levels stop at the same place. -/
theorem eq_of_append_eq
    (derives : Derives table levels tokens expr)
    (derives' : Derives table levels tokens' expr')
    (same : tokens ++ back = tokens' ++ back')
    (stops : NoOperator levels back)
    (stops' : NoOperator levels back') :
    tokens = tokens' ∧ back = back' := by
  rcases List.append_eq_append_iff.mp same with ⟨between, longer, rest⟩ | ⟨between, longer, rest⟩
  · cases between with
    | nil =>
        exact ⟨by rw [longer, List.append_nil], rest⟩
    | cons token between =>
        rw [longer] at derives'
        exact absurd (derives.operator_of_longer derives') (stops token _ rest)
  · cases between with
    | nil =>
        exact ⟨by rw [longer, List.append_nil], rest.symm⟩
    | cons token between =>
        rw [longer] at derives
        exact absurd (derives'.operator_of_longer derives) (stops' token _ rest)

/-- What a level derives, taken apart into its operands. -/
theorem level_inv
    {level : OperatorLevel}
    (derives : Derives table (level :: levels) tokens expr) :
    ∃ (front : List Token) (first : Expr) (operands : List Operand),
      tokens = front ++ operands.flatMap Operand.all ∧
      expr = level.fold first (operands.map Operand.expr) ∧
      Derives table levels front first ∧
      (∀ operand ∈ operands, operand.separator.is Tag.operator level.operator = true) ∧
      ∀ operand ∈ operands, Derives table levels operand.tokens operand.expr := by
  cases derives with
  | level head separators tail =>
      exact ⟨_, _, _, rfl, rfl, head, separators, tail⟩

/-- What stands behind the last level: an integer, or the whole table in parentheses. -/
theorem atom_inv
    (derives : Derives table [] tokens expr) :
    (∃ token value,
      tokens = [token] ∧ expr = .number value ∧
      token.tag = Tag.integer ∧ Numeral.read token.text = .ok value) ∨
    ∃ opening inner closing,
      tokens = opening :: (inner ++ [closing]) ∧
      opening.opens = true ∧ Derives table table inner expr ∧ closing.closes = true := by
  cases derives with
  | integer tagged reads =>
      exact .inl ⟨_, _, rfl, rfl, tagged, reads⟩
  | group opens inner closes =>
      exact .inr ⟨_, _, _, rfl, opens, inner, closes⟩

/-- Operands with one separator between them can be told apart in the tokens. -/
theorem operands_unique
    {symbol : String}
    {front front' : List Token}
    {first first' : Expr}
    {operands operands' : List Operand}
    (apart : symbol ∉ operators levels)
    (head : Derives table levels front first)
    (headUnique : ∀ expr, Derives table levels front expr → first = expr)
    (separators : ∀ operand ∈ operands, operand.separator.is Tag.operator symbol = true)
    (tail : ∀ operand ∈ operands, Derives table levels operand.tokens operand.expr)
    (tailUnique : ∀ operand ∈ operands, ∀ expr,
      Derives table levels operand.tokens expr → operand.expr = expr)
    (head' : Derives table levels front' first')
    (separators' : ∀ operand ∈ operands', operand.separator.is Tag.operator symbol = true)
    (tail' : ∀ operand ∈ operands', Derives table levels operand.tokens operand.expr)
    (same : front ++ operands.flatMap Operand.all = front' ++ operands'.flatMap Operand.all) :
    first = first' ∧ operands.map Operand.expr = operands'.map Operand.expr := by
  induction operands generalizing front front' first first' operands' with
  | nil =>
      obtain ⟨rfl, rest⟩ :=
        head.eq_of_append_eq head' same (noOperator_operands apart separators)
          (noOperator_operands apart separators')
      cases operands' with
      | nil =>
          exact ⟨headUnique first' head', rfl⟩
      | cons operand' operands' =>
          rw [List.flatMap_cons, Operand.all] at rest
          cases rest
  | cons operand operands ih =>
      obtain ⟨rfl, rest⟩ :=
        head.eq_of_append_eq head' same (noOperator_operands apart separators)
          (noOperator_operands apart separators')
      cases operands' with
      | nil =>
          rw [List.flatMap_cons, Operand.all] at rest
          cases rest
      | cons operand' operands' =>
          simp only [List.flatMap_cons, Operand.all, List.cons_append, List.cons.injEq] at rest
          obtain ⟨sameExpr, sameExprs⟩ :=
            ih (tail operand List.mem_cons_self) (tailUnique operand List.mem_cons_self)
              (fun other there => separators other (List.mem_cons_of_mem _ there))
              (fun other there => tail other (List.mem_cons_of_mem _ there))
              (fun other there => tailUnique other (List.mem_cons_of_mem _ there))
              (tail' operand' List.mem_cons_self)
              (fun other there => separators' other (List.mem_cons_of_mem _ there))
              (fun other there => tail' other (List.mem_cons_of_mem _ there))
              rest.2
          refine ⟨headUnique first' head', ?_⟩
          rw [List.map_cons, List.map_cons, sameExpr, sameExprs]

end Derives

theorem Distinct.not_mem_operators
    {level : OperatorLevel}
    (distinct : Distinct (level :: levels)) :
    level.operator ∉ operators levels := by
  intro among
  obtain ⟨other, there, same⟩ := List.mem_map.mp among
  exact List.rel_of_pairwise_cons distinct there same.symm

/-- With distinct operators, tokens derive at most one expression. -/
theorem Derives.unique
    (distinctTable : Distinct table)
    (derives : Derives table levels tokens expr)
    (distinct : Distinct levels)
    (derives' : Derives table levels tokens expr') :
    expr = expr' := by
  induction derives generalizing expr' with
  | integer tagged reads =>
      rcases derives'.atom_inv with ⟨token, value, same, rfl, _, reads'⟩ |
        ⟨opening, inner, closing, same, _, _, _⟩
      · cases same
        rw [reads] at reads'
        cases reads'
        rfl
      · simp at same
  | group opens inner closes ih =>
      rcases derives'.atom_inv with ⟨token, value, same, _, _, _⟩ |
        ⟨opening', inner', closing', same, _, derives', closes'⟩
      · simp at same
      · rw [List.cons.injEq] at same
        obtain ⟨rfl, _⟩ :=
          inner.eq_of_append_eq derives' same.2 (noOperator_closing table closes [])
            (noOperator_closing table closes' [])
        exact ih distinctTable derives'
  | level head separators tail ihHead ihTail =>
      have later : Distinct _ := List.Pairwise.of_cons distinct
      obtain ⟨front', first', operands', same, rfl, head', separators', tail'⟩ :=
        derives'.level_inv
      obtain ⟨sameFirst, sameRest⟩ :=
        operands_unique distinct.not_mem_operators head
          (fun _ other => ihHead later other) separators tail
          (fun operand there _ other => ihTail operand there later other)
          head' separators' tail' same
      rw [sameFirst, sameRest]

end LevelTable
end Precedence
