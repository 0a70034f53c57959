import Precedence.Proofs.Arithmetic.LongestPrefix

/-!
# What the arithmetic parser accepts

Over tokens that can be read, the parser has three outcomes, and the layered grammar tells
which of them comes about (`parseWithin_cases`).

* All tokens derive an expression: the tree denotes it.
* A longest beginning derives an expression, and tokens remain: the first of these is
  reported as garbage.
* No beginning derives an expression: the bottom parser reports the first token.

As the operators of a table are distinct, tokens derive one expression at most. So the
parser accepts exactly the grammar (`parse_accepts_grammar`), and each of its two
diagnostics has an exact condition (`parse_diagnoses_prefix`).
-/

namespace Precedence

open LevelTable

/--
Tokens of one file whose integers are numerals and whose parentheses nest within a limit.
-/
structure Readable (limit : Nat) (tokens : List Token) : Prop where
  oneFile : InOneFile tokens
  numerals : ∀ token ∈ tokens, token.tag = Tag.integer →
    ∃ value, Numeral.read token.text = .ok value
  nests : NestsWithin Token.opens Token.closes limit tokens

/-- So many tokens are the longest beginning that is an expression of the table. -/
structure LongestExpression (table : LevelTable) (tokens : List Token) (count : Nat) :
    Prop where
  positive : 0 < count
  within : count ≤ tokens.length
  derives : ∃ expr, Derives table table (tokens.take count) expr
  longest : ∀ other ≤ tokens.length,
    (∃ expr, Derives table table (tokens.take other) expr) → other ≤ count

namespace LongestExpression

variable {table : LevelTable}
variable {tokens front back : List Token}
variable {expr : Expr}
variable {count count' : Nat}

theorem of_longest
    (longest : Longest table table front back expr) :
    LongestExpression table (front ++ back) front.length := by
  refine ⟨longest.derives.length_pos, by simp, ⟨expr, ?_⟩, ?_⟩
  · rw [List.take_left]
    exact longest.derives
  · rintro other within ⟨expr', derives⟩
    have shorter := longest.longest _ _ expr' (List.take_append_drop other _).symm derives
    rw [List.length_take] at shorter
    omega

theorem unique
    (first : LongestExpression table tokens count)
    (second : LongestExpression table tokens count') :
    count = count' :=
  Nat.le_antisymm (second.longest count first.within first.derives)
    (first.longest count' second.within second.derives)

/-- Behind a longest expression that takes all tokens there is no token. -/
theorem getElem?_eq_none
    (all : LongestExpression table tokens tokens.length)
    (longest : LongestExpression table tokens count) :
    tokens[count]? = none := by
  rw [longest.unique all]
  exact List.getElem?_eq_none (Nat.le_refl _)

end LongestExpression

namespace LevelTable

variable {table : LevelTable}
variable {tokens : List Token}

theorem NoBeginning.not_longestExpression
    (none : NoBeginning table table tokens)
    (count : Nat) :
    ¬ LongestExpression table tokens count := by
  intro longest
  obtain ⟨expr, derives⟩ := longest.derives
  exact none _ _ expr (List.take_append_drop count tokens).symm derives

end LevelTable

namespace Arithmetic

/-- The problem that a parse reports at a place. -/
def syntaxProblem (location : Location) (message : String) : Problem :=
  .reported ⟨.grammatical, some location, message⟩

/-- Where the first token stands, or the beginning of the file where there is none. -/
def firstLocation (fileName : String) (tokens : List Token) : Location :=
  (tokens.head?.map Token.location).getD (Location.startOf fileName)

variable {table : LevelTable}
variable {limit : Nat}
variable {tokens : List Token}

theorem location_ofTokens
    (fileName : String)
    (tokens : List Token) :
    (Reader.ofTokens fileName tokens).location = firstLocation fileName tokens := by
  cases tokens <;> rfl

theorem legible_ofTokens
    (fileName : String)
    (readable : Readable limit tokens) :
    ∃ file, Legible file limit (Reader.ofTokens fileName tokens) := by
  have inOneFile : InOneFile (Reader.ofTokens fileName tokens).tokens := by
    rw [Reader.tokens_ofTokens]
    exact readable.oneFile
  exact ⟨_, Reader.inFile_of_inOneFile inOneFile, readable.numerals, readable.nests⟩

/-- The three outcomes of the parser over tokens that can be read. -/
theorem parseWithin_cases
    (distinct : Distinct table)
    (fileName : String)
    (readable : Readable limit tokens) :
    (∃ node expr,
      parseWithin limit table fileName tokens = .ok node ∧ node.expr? = some expr ∧
      Derives table table tokens expr) ∨
    (∃ front token back expr,
      tokens = front ++ token :: back ∧ Longest table table front (token :: back) expr ∧
      parseWithin limit table fileName tokens =
        .error (syntaxProblem token.location Parser.garbageMessage)) ∨
    NoBeginning table table tokens ∧
      parseWithin limit table fileName tokens =
        .error (syntaxProblem (firstLocation fileName tokens) Level.bottomMessage) := by
  obtain ⟨file, legible⟩ := legible_ofTokens fileName readable
  obtain ⟨result, ran, outcome⟩ := endsAt_of_legible distinct distinct legible
  have phrase := run_eq limit table (Reader.ofTokens fileName tokens)
  rw [Parser.runWith, ran] at phrase
  cases outcome with
  | @unmatched none =>
      right
      right
      refine ⟨none, ?_⟩
      rw [Parser.onSuccess_failure, location_ofTokens] at phrase
      unfold parseWithin
      simp only [phrase]
      rfl
  | @matched location node next front expr located denotes passes longest =>
      rw [Parser.onSuccess_success] at phrase
      have split : tokens = front ++ next.rest := passes.rest_eq
      cases remaining : next.rest with
      | nil =>
          left
          refine ⟨node, expr, ?_, denotes.expr_eq, ?_⟩
          · unfold parseWithin
            simp only [phrase, Reader.isEmpty, remaining]
            rfl
          · rw [split, remaining, List.append_nil]
            exact longest.derives
      | cons token back =>
          right
          left
          rw [remaining] at split longest
          have stands : next.location = token.location := by
            unfold Reader.location
            rw [remaining]
          refine ⟨front, token, back, expr, split, longest, ?_⟩
          unfold parseWithin
          simp only [phrase, Reader.isEmpty, remaining, stands]
          rfl

/-- The parser either denotes what all tokens derive, or they derive nothing. -/
theorem parseWithin_ok_or_error
    (distinct : Distinct table)
    (fileName : String)
    (readable : Readable limit tokens) :
    (∃ node expr,
      parseWithin limit table fileName tokens = .ok node ∧ node.expr? = some expr ∧
      Derives table table tokens expr) ∨
    ∃ problem,
      parseWithin limit table fileName tokens = .error problem ∧
      ∀ expr, ¬ Derives table table tokens expr := by
  rcases parseWithin_cases distinct fileName readable with
    accepted | ⟨front, token, back, expr, rfl, longest, fails⟩ | ⟨none, fails⟩
  · exact .inl accepted
  · refine .inr ⟨_, fails, ?_⟩
    intro expr' derives
    have shorter := longest.longest _ [] expr' (List.append_nil _).symm derives
    simp only [List.length_append, List.length_cons] at shorter
    omega
  · refine .inr ⟨_, fails, ?_⟩
    intro expr derives
    exact none tokens [] expr (List.append_nil tokens).symm derives

/-- Some tree is given back that denotes an expression exactly if all tokens derive it. -/
theorem parseWithin_denotes_iff
    (distinct : Distinct table)
    (fileName : String)
    (readable : Readable limit tokens)
    (expr : Expr) :
    (∃ node, parseWithin limit table fileName tokens = .ok node ∧ node.expr? = some expr) ↔
      Derives table table tokens expr := by
  rcases parseWithin_ok_or_error distinct fileName readable with
    ⟨node, expr', parses, denotes, derives⟩ | ⟨problem, fails, none⟩
  · constructor
    · rintro ⟨node', parses', denotes'⟩
      cases parses.symm.trans parses'
      cases denotes.symm.trans denotes'
      exact derives
    · intro derives'
      cases derives.unique distinct distinct derives'
      exact ⟨node, parses, denotes⟩
  · constructor
    · rintro ⟨node, parses, _⟩
      cases fails.symm.trans parses
    · intro derives
      exact absurd derives (none expr)

/-- Every tree that is given back denotes an expression. -/
theorem exists_expr_of_parseWithin
    {node : Node}
    (distinct : Distinct table)
    (fileName : String)
    (readable : Readable limit tokens)
    (parses : parseWithin limit table fileName tokens = .ok node) :
    ∃ expr, node.expr? = some expr := by
  rcases parseWithin_ok_or_error distinct fileName readable with
    ⟨node', expr, parses', denotes, _⟩ | ⟨problem, fails, _⟩
  · cases parses'.symm.trans parses
    exact ⟨expr, denotes⟩
  · cases fails.symm.trans parses

/--
The parser accepts exactly what the grammar of its table derives, and its tree denotes the
expression that is derived. Any tokens derive one expression at most.
-/
theorem parse_accepts_grammar
    (table : LevelTable)
    (distinct : Distinct table) :
    (∀ fileName tokens, Readable nestingLimit tokens →
      (∀ node, parse table fileName tokens = .ok node → ∃ expr, node.expr? = some expr) ∧
      ∀ expr,
        (∃ node, parse table fileName tokens = .ok node ∧ node.expr? = some expr) ↔
          Derives table table tokens expr) ∧
    ∀ tokens expr expr', Derives table table tokens expr → Derives table table tokens expr' →
      expr = expr' := by
  refine ⟨?_, ?_⟩
  · intro fileName tokens readable
    refine ⟨?_, parseWithin_denotes_iff distinct fileName readable⟩
    intro node parses
    exact exists_expr_of_parseWithin distinct fileName readable parses
  · intro tokens expr expr' first second
    exact first.unique distinct distinct second

/-- `1 - 2 - 3` where `-` groups to the left. -/
theorem parse_accepts_grammar_minus :
    let place := Location.startOf "sum"
    let minus : Token := ⟨"-", Tag.operator, place⟩
    let tokens : List Token :=
      [⟨"1", Tag.integer, place⟩, minus, ⟨"2", Tag.integer, place⟩, minus,
        ⟨"3", Tag.integer, place⟩]
    ∃ node,
      parse [⟨"-", .subtraction, .left⟩] "sum" tokens = .ok node ∧
      node.expr? =
        some (.binary .subtraction (.binary .subtraction (.number 1) (.number 2))
          (.number 3)) := by
  intro place minus tokens
  have readsOne : Numeral.read "1" = .ok 1 := rfl
  have readsTwo : Numeral.read "2" = .ok 2 := rfl
  have readsThree : Numeral.read "3" = .ok 3 := rfl
  have readable : Readable nestingLimit tokens := by
    refine ⟨by decide, ?_, by decide⟩
    intro token there tagged
    simp only [tokens, List.mem_cons, List.not_mem_nil, or_false] at there
    rcases there with rfl | rfl | rfl | rfl | rfl
    · exact ⟨1, readsOne⟩
    · exact absurd tagged (by decide)
    · exact ⟨2, readsTwo⟩
    · exact absurd tagged (by decide)
    · exact ⟨3, readsThree⟩
  have accepted := (parse_accepts_grammar [⟨"-", .subtraction, .left⟩] (by decide)).1
    "sum" tokens readable
  apply (accepted.2 _).mpr
  have one : Derives [⟨"-", .subtraction, .left⟩] [] [⟨"1", Tag.integer, place⟩] (.number 1) :=
    .integer rfl readsOne
  have two : Derives [⟨"-", .subtraction, .left⟩] [] [⟨"2", Tag.integer, place⟩] (.number 2) :=
    .integer rfl readsTwo
  have three : Derives [⟨"-", .subtraction, .left⟩] [] [⟨"3", Tag.integer, place⟩] (.number 3) :=
    .integer rfl readsThree
  have operands : ∀ operand ∈ [Operand.mk minus _ _, Operand.mk minus _ _],
      Derives [⟨"-", .subtraction, .left⟩] [] operand.tokens operand.expr :=
    List.forall_mem_cons.mpr ⟨two, List.forall_mem_singleton.mpr three⟩
  exact .level one (by decide) operands

/-- The outcome of the parser in terms of the number of tokens that an expression takes. -/
theorem parseWithin_longestExpression
    (distinct : Distinct table)
    (fileName : String)
    (readable : Readable limit tokens) :
    (∃ node,
      parseWithin limit table fileName tokens = .ok node ∧
      LongestExpression table tokens tokens.length) ∨
    (∃ count token,
      LongestExpression table tokens count ∧ tokens[count]? = some token ∧
      parseWithin limit table fileName tokens =
        .error (syntaxProblem token.location Parser.garbageMessage)) ∨
    (∀ count, ¬ LongestExpression table tokens count) ∧
      parseWithin limit table fileName tokens =
        .error (syntaxProblem (firstLocation fileName tokens) Level.bottomMessage) := by
  rcases parseWithin_cases distinct fileName readable with
    ⟨node, expr, parses, _, derives⟩ | ⟨front, token, back, expr, rfl, longest, fails⟩ |
    ⟨none, fails⟩
  · refine .inl ⟨node, parses, derives.length_pos, Nat.le_refl _, ⟨expr, ?_⟩, ?_⟩
    · rw [List.take_length]
      exact derives
    · intro other within _
      exact within
  · refine .inr (.inl ⟨front.length, token, .of_longest longest, ?_, fails⟩)
    rw [List.getElem?_append_right (Nat.le_refl _), Nat.sub_self]
    rfl
  · exact .inr (.inr ⟨none.not_longestExpression, fails⟩)

theorem syntaxProblem_inj
    {location location' : Location}
    {message message' : String}
    (same : (Except.error (syntaxProblem location message) : Except Problem Node) =
      .error (syntaxProblem location' message')) :
    location = location' ∧ message = message' := by
  cases same
  exact ⟨rfl, rfl⟩

theorem bottomMessage_ne_garbageMessage :
    Level.bottomMessage ≠ Parser.garbageMessage := by
  decide

/-- The bottom parser reports that no beginning is an expression, at the first token. -/
theorem parseWithin_bottom_iff
    (distinct : Distinct table)
    (fileName : String)
    (readable : Readable limit tokens)
    (location : Location) :
    parseWithin limit table fileName tokens =
        .error (syntaxProblem location Level.bottomMessage) ↔
      location = firstLocation fileName tokens ∧
      ¬ ∃ count, LongestExpression table tokens count := by
  rcases parseWithin_longestExpression distinct fileName readable with
    ⟨node, parses, all⟩ | ⟨count, token, longest, behind, fails⟩ | ⟨none, fails⟩
  · refine iff_of_false ?_ (fun noExpression => noExpression.2 ⟨_, all⟩)
    intro same
    cases parses.symm.trans same
  · refine iff_of_false ?_ (fun noExpression => noExpression.2 ⟨_, longest⟩)
    intro same
    exact bottomMessage_ne_garbageMessage (syntaxProblem_inj (fails.symm.trans same)).2.symm
  · constructor
    · intro same
      refine ⟨(syntaxProblem_inj (fails.symm.trans same)).1.symm, ?_⟩
      rintro ⟨count, longest⟩
      exact none count longest
    · rintro ⟨rfl, _⟩
      exact fails

/-- Garbage is reported at the token behind the longest expression. -/
theorem parseWithin_garbage_iff
    (distinct : Distinct table)
    (fileName : String)
    (readable : Readable limit tokens)
    (location : Location) :
    parseWithin limit table fileName tokens =
        .error (syntaxProblem location Parser.garbageMessage) ↔
      ∃ count token,
        LongestExpression table tokens count ∧ tokens[count]? = some token ∧
        location = token.location := by
  rcases parseWithin_longestExpression distinct fileName readable with
    ⟨node, parses, all⟩ | ⟨count, token, longest, behind, fails⟩ | ⟨none, fails⟩
  · refine iff_of_false ?_ ?_
    · intro same
      cases parses.symm.trans same
    · rintro ⟨count, token, longest, behind, _⟩
      cases (all.getElem?_eq_none longest).symm.trans behind
  · constructor
    · intro same
      exact ⟨count, token, longest, behind,
        (syntaxProblem_inj (fails.symm.trans same)).1.symm⟩
    · rintro ⟨count', token', longest', behind', rfl⟩
      cases longest.unique longest'
      cases behind.symm.trans behind'
      exact fails
  · refine iff_of_false ?_ ?_
    · intro same
      exact bottomMessage_ne_garbageMessage (syntaxProblem_inj (fails.symm.trans same)).2
    · rintro ⟨count, token, longest, _⟩
      exact none count longest

/-- A tree is given back if the longest expression takes all tokens. -/
theorem parseWithin_ok_iff
    (distinct : Distinct table)
    (fileName : String)
    (readable : Readable limit tokens) :
    (∃ node, parseWithin limit table fileName tokens = .ok node) ↔
      LongestExpression table tokens tokens.length := by
  rcases parseWithin_longestExpression distinct fileName readable with
    ⟨node, parses, all⟩ | ⟨count, token, longest, behind, fails⟩ | ⟨none, fails⟩
  · exact iff_of_true ⟨node, parses⟩ all
  · refine iff_of_false ?_ ?_
    · rintro ⟨node, parses⟩
      cases fails.symm.trans parses
    · intro all
      cases (all.getElem?_eq_none longest).symm.trans behind
  · refine iff_of_false ?_ (none _)
    rintro ⟨node, parses⟩
    cases fails.symm.trans parses

/--
Each outcome of the parser tells about the longest beginning that is an expression: the
message of the bottom parser, at the first token, that there is none; garbage at a token,
that this token stands behind it; a tree, that it takes all tokens.
-/
theorem parse_diagnoses_longest_expression
    (table : LevelTable)
    (distinct : Distinct table)
    (fileName : String)
    (tokens : List Token)
    (readable : Readable nestingLimit tokens) :
    (∀ location,
      parse table fileName tokens =
          .error (syntaxProblem location Level.bottomMessage) ↔
        location = firstLocation fileName tokens ∧
        ¬ ∃ count, LongestExpression table tokens count) ∧
    (∀ location,
      parse table fileName tokens =
          .error (syntaxProblem location Parser.garbageMessage) ↔
        ∃ count token,
          LongestExpression table tokens count ∧ tokens[count]? = some token ∧
          location = token.location) ∧
    ((∃ node, parse table fileName tokens = .ok node) ↔
      LongestExpression table tokens tokens.length) :=
  ⟨parseWithin_bottom_iff distinct fileName readable,
    parseWithin_garbage_iff distinct fileName readable,
    parseWithin_ok_iff distinct fileName readable⟩

/-- In `1 -` the operator is left over, although it is one of the table. -/
theorem parse_diagnoses_longest_expression_minus :
    let place := Location.startOf "sum"
    let stop := Location.ofPositions "sum" ⟨1, 3⟩ ⟨1, 4⟩
    parse [⟨"-", .subtraction, .left⟩] "sum"
        [⟨"1", Tag.integer, place⟩, ⟨"-", Tag.operator, stop⟩] =
      .error (syntaxProblem stop Parser.garbageMessage) := by
  intro place stop
  have reads : Numeral.read "1" = .ok 1 := rfl
  have readable : Readable nestingLimit
      [⟨"1", Tag.integer, place⟩, ⟨"-", Tag.operator, stop⟩] := by
    refine ⟨by decide, ?_, by decide⟩
    intro token there tagged
    simp only [List.mem_cons, List.not_mem_nil, or_false] at there
    rcases there with rfl | rfl
    · exact ⟨1, reads⟩
    · exact absurd tagged (by decide)
  have diagnosed := parse_diagnoses_longest_expression [⟨"-", .subtraction, .left⟩]
    (by decide) "sum" _ readable
  apply (diagnosed.2.1 stop).mpr
  refine ⟨1, _, ⟨by decide, by decide, ⟨.number 1, ?_⟩, ?_⟩, rfl, rfl⟩
  · exact @Derives.level _ _ [] _ _ [] (.integer rfl reads) (by simp) (by simp)
  · rintro other within ⟨expr, derives⟩
    match other, within with
    | 0, _ => decide
    | 1, _ => decide
    | 2, _ => cases derives.scan_eq ["-"] 0 (by decide)

end Arithmetic
end Precedence
