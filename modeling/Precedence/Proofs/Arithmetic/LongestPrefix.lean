import Precedence.Proofs.Arithmetic.Composition
import Precedence.Proofs.Grammar.Longest
import Precedence.Proofs.Grammar.Nesting
import Precedence.Proofs.Level.Operands

/-!
# Levels match longest beginnings

A parser of some levels of a table stops behind the longest beginning that these levels
derive, with a node that denotes what they derive. If there is none it fails where it began,
with the message of the bottom parser.

The proof follows the grammar. A call of the forward parser has fewer tokens before it, so
the outer induction is on the number of tokens that remain, with a bound on nesting that
each opened parenthesis lowers; the inner one is on the levels.

* `atom_endsAt` and `level_endsAt` are the two kinds of steps.
* `endsAt_of_legible` is the result for all levels.
-/

namespace Precedence
namespace Arithmetic

open Precedence.Parser LevelTable

/-- A reader in front of tokens that can be read, with so many parentheses to open. -/
structure Legible (file : String) (limit : Nat) (reader : Reader) : Prop where
  inFile : reader.InFile file
  numerals : ∀ token ∈ reader.rest, token.tag = Tag.integer →
    ∃ value, Numeral.read token.text = .ok value
  nests : NestsWithin Token.opens Token.closes limit reader.rest

/-- What the levels of a table may make of a reader. -/
inductive Outcome (table levels : LevelTable) (file : String) (reader : Reader) :
    Result Node → Prop
  | matched
      {location : Location}
      {node : Node}
      {next : Reader}
      {front : List Token}
      {expr : Expr}
      (located : location.fileName = file)
      (denotes : node.Denotes file expr)
      (passes : reader.Passes front next)
      (longest : Longest table levels front next.rest expr) :
      Outcome table levels file reader (.success location node next)
  | unmatched
      (none : NoBeginning table levels reader.rest) :
      Outcome table levels file reader (.failure reader.location Level.bottomMessage)

/-- The run of the levels ends, in one of the ways that it may. -/
def EndsAt (table levels : LevelTable) (file : String) (limit : Nat) (reader : Reader) :
    Prop :=
  ∃ result,
    runWith (call table limit) (parserOf levels) reader = pure result ∧
    Outcome table levels file reader result

variable {table levels : LevelTable}
variable {file : String}
variable {limit : Nat}
variable {reader next : Reader}

namespace Legible

/-- Behind balanced tokens a reader is as legible as in front of them. -/
theorem of_passes
    {front : List Token}
    (legible : Legible file limit reader)
    (passes : reader.Passes front next)
    (balanced : front.countP Token.opens = front.countP Token.closes) :
    Legible file limit next := by
  obtain ⟨inFile, numerals, nests⟩ := legible
  rw [passes.rest_eq] at numerals nests
  refine ⟨inFile.of_passes passes, ?_, nests.of_append balanced⟩
  intro token there
  exact numerals token (List.mem_append_right front there)

/-- Behind a parenthesis one less may be opened. -/
theorem of_opening
    {opening : Token}
    (legible : Legible file limit reader)
    (passes : reader.Passes [opening] next)
    (opens : opening.opens = true) :
    ∃ inner, limit = inner + 1 ∧ Legible file inner next := by
  obtain ⟨inFile, numerals, nests⟩ := legible
  rw [passes.rest_eq] at numerals nests
  obtain ⟨inner, rfl, nestsInner⟩ := nests.of_opening opens (Token.not_closes_of_opens opens)
  refine ⟨inner, rfl, inFile.of_passes passes, ?_, nestsInner⟩
  intro token there
  exact numerals token (List.mem_append_right [opening] there)

end Legible

/-- The parser fails at the reader, wherever and for whatever reason. -/
def Fails {α : Type} (calls : Unit → Reader → Action (Result Node)) (parser : ExprParser α)
    (reader : Reader) : Prop :=
  ∃ location message, runWith calls parser reader = pure (.failure location message)

section Tokens

variable (calls : Unit → Reader → Action (Result Node))
variable {tag : Tag} {text : String}
variable {token : Token}
variable {rest : List Token}

theorem runWith_reserved
    (remaining : reader.rest = token :: rest)
    (matching : token.is tag text = true) :
    ∃ next,
      reader.Passes [token] next ∧
      runWith calls (.reserved tag text) reader =
        pure (.success token.location token.text next) := by
  obtain ⟨next, passes, expects⟩ := expect_of_match text Token.text remaining matching
  refine ⟨next, passes, ?_⟩
  rw [runWith]
  exact congrArg pure expects

theorem reserved_fails
    (mismatch : ∀ token rest, reader.rest = token :: rest → token.is tag text = false) :
    Fails calls (.reserved tag text) reader := by
  obtain ⟨location, message, expects⟩ := expect_of_mismatch text Token.text mismatch
  refine ⟨location, message, ?_⟩
  rw [runWith]
  exact congrArg pure expects

theorem runWith_integer
    {value : Int}
    (remaining : reader.rest = token :: rest)
    (tagged : token.tag = Tag.integer)
    (reads : Numeral.read token.text = .ok value) :
    ∃ next,
      reader.Passes [token] next ∧
      runWith calls integer reader =
        pure (.success token.location (.number value token.location) next) := by
  obtain ⟨next, passes, expects⟩ :=
    @expect_of_match reader (fun found => found.tag == Tag.integer) token rest
      Tag.integer Token.tag remaining (beq_iff_eq.mpr tagged)
  have found :
      runWith calls (.tag Tag.integer) reader =
        pure (.success token.location token.text next) := by
    rw [runWith]
    exact congrArg pure expects
  refine ⟨next, passes, ?_⟩
  rw [integer, runWith, found, onSuccess_success, reads]
  rfl

theorem integer_fails
    (mismatch : ∀ token rest, reader.rest = token :: rest → token.tag ≠ Tag.integer) :
    Fails calls integer reader := by
  obtain ⟨location, message, expects⟩ :=
    @expect_of_mismatch reader (fun found => found.tag == Tag.integer)
      Tag.integer Token.tag
      (fun token rest remaining => beq_eq_false_iff_ne.mpr (mismatch token rest remaining))
  have found :
      runWith calls (.tag Tag.integer) reader = pure (.failure location message) := by
    rw [runWith]
    exact congrArg pure expects
  refine ⟨location, message, ?_⟩
  rw [integer, runWith, found, onSuccess_failure]

end Tokens

section Atoms

variable {token : Token}
variable {rest : List Token}

/-- A parenthesis with an expression of the whole grammar behind it. -/
def opened : ExprParser Node :=
  (Parser.reserved Tag.reserved "(").keepRight (.forward ())

/-- An expression in parentheses. -/
def parenthesized : ExprParser Node :=
  opened.keepLeft (.reserved Tag.reserved ")")

theorem atom_eq : atom = integer.orElse (parenthesized.orElse Level.bottom) :=
  rfl

/-- Where neither an integer nor a parenthesis matches, the bottom parser is reached. -/
theorem atom_endsAt_bottom
    (noInteger : Fails (call table limit) integer reader)
    (noGroup : Fails (call table limit) parenthesized reader)
    (none : NoBeginning table [] reader.rest) :
    EndsAt table [] file limit reader := by
  obtain ⟨_, _, first⟩ := noInteger
  obtain ⟨_, _, second⟩ := noGroup
  refine ⟨_, ?_, .unmatched none⟩
  change runWith (call table limit) atom reader = _
  rw [atom_eq, runWith_orElse_failure first, runWith_orElse_failure second, Level.bottom,
    runWith]

theorem atom_endsAt_integer
    (legible : Legible file limit reader)
    (remaining : reader.rest = token :: rest)
    (tagged : token.tag = Tag.integer) :
    EndsAt table [] file limit reader := by
  obtain ⟨value, reads⟩ := legible.numerals token (by simp [remaining]) tagged
  obtain ⟨next, passes, run⟩ := runWith_integer (call table limit) remaining tagged reads
  have located := legible.inFile.head remaining
  refine ⟨_, runWith_orElse_success run, .matched located ⟨rfl, located⟩ passes ?_⟩
  exact longest_integer tagged reads next.rest

/-- What stands behind an opened parenthesis has fewer tokens left, and less to open. -/
theorem opened_run
    (legible : Legible file limit reader)
    (remaining : reader.rest = token :: rest)
    (opens : token.opens = true)
    (inside : ∀ {inner next}, Legible file inner next →
      next.rest.length < reader.rest.length → EndsAt table table file inner next) :
    (Fails (call table limit) opened reader ∧ NoBeginning table table rest) ∨
    ∃ location node next front expr,
      runWith (call table limit) opened reader = pure (.success location node next) ∧
      location.fileName = file ∧ node.Denotes file expr ∧
      reader.Passes (token :: front) next ∧ Longest table table front next.rest expr := by
  obtain ⟨next, passes, opening⟩ := runWith_reserved (call table limit) remaining opens
  obtain ⟨inner, rfl, legibleInside⟩ := legible.of_opening passes opens
  have located := legible.inFile.head remaining
  have sameRest := passes.rest_eq
  rw [remaining, List.singleton_append, List.cons.injEq] at sameRest
  have shorter : next.rest.length < reader.rest.length := by
    rw [passes.length_rest, List.length_singleton]
    omega
  obtain ⟨result, run, outcome⟩ := inside legibleInside shorter
  have called : runWith (call table (inner + 1)) (.forward ()) next = pure result := by
    rw [runWith, call_succ, run]
  cases outcome with
  | unmatched none =>
      refine .inl ⟨⟨_, _, runWith_keepRight_failure_behind opening called⟩, ?_⟩
      rw [sameRest.2]
      exact none
  | matched hereIn denotes passesInside longest =>
      obtain ⟨location, inFile, both⟩ :=
        runWith_keepRight_success opening called located hereIn
      exact .inr ⟨location, _, _, _, _, both, inFile, denotes,
        passes.trans passesInside, longest⟩

theorem atom_endsAt_opening
    (legible : Legible file limit reader)
    (remaining : reader.rest = token :: rest)
    (opens : token.opens = true)
    (inside : ∀ {inner next}, Legible file inner next →
      next.rest.length < reader.rest.length → EndsAt table table file inner next) :
    EndsAt table [] file limit reader := by
  have noInteger : Fails (call table limit) integer reader := by
    apply integer_fails
    intro other _ same
    rw [remaining, List.cons.injEq] at same
    rw [← same.1, Token.tag_of_opens opens]
    decide
  rcases opened_run legible remaining opens inside with ⟨⟨_, _, failure⟩, none⟩ |
    ⟨here, node, behind, front, expr, run, located, denotes, passes, longest⟩
  · refine atom_endsAt_bottom noInteger ⟨_, _, runWith_keepLeft_failure failure⟩ ?_
    rw [remaining]
    exact noBeginning_opening opens none
  by_cases closed : ∃ closing later, behind.rest = closing :: later ∧ closing.closes = true
  · obtain ⟨closing, later, remainingBehind, closes⟩ := closed
    obtain ⟨stop, passesClosing, runClosing⟩ :=
      runWith_reserved (call table limit) remainingBehind closes
    have closingIn := (legible.inFile.of_passes passes).head remainingBehind
    obtain ⟨whole, wholeIn, runGroup⟩ :=
      runWith_keepLeft_success run runClosing located closingIn
    obtain ⟨_, _, failure⟩ := noInteger
    refine ⟨.success whole node stop, ?_, ?_⟩
    · exact (runWith_orElse_failure failure).trans (runWith_orElse_success runGroup)
    · refine .matched wholeIn denotes (passes.trans passesClosing) ?_
      rw [passesClosing.rest_eq] at longest
      exact longest_group opens longest closes
  · have unclosed : ∀ closing later, behind.rest = closing :: later →
        closing.closes ≠ true := by
      intro closing later remainingBehind closes
      exact closed ⟨closing, later, remainingBehind, closes⟩
    obtain ⟨_, _, failure⟩ : Fails (call table limit) (.reserved Tag.reserved ")") behind := by
      apply reserved_fails
      intro closing later remainingBehind
      exact Bool.eq_false_iff.mpr (unclosed closing later remainingBehind)
    refine atom_endsAt_bottom noInteger
      ⟨_, _, runWith_keepLeft_failure_behind run failure⟩ ?_
    rw [passes.rest_eq]
    exact noBeginning_unclosed opens longest unclosed

/-- Behind the last level stands an integer, an expression in parentheses, or nothing. -/
theorem atom_endsAt
    (legible : Legible file limit reader)
    (inside : ∀ {inner next}, Legible file inner next →
      next.rest.length < reader.rest.length → EndsAt table table file inner next) :
    EndsAt table [] file limit reader := by
  by_cases tagged : ∃ token rest, reader.rest = token :: rest ∧ token.tag = Tag.integer
  · obtain ⟨token, rest, remaining, tagged⟩ := tagged
    exact atom_endsAt_integer legible remaining tagged
  by_cases opens : ∃ token rest, reader.rest = token :: rest ∧ token.opens = true
  · obtain ⟨token, rest, remaining, opens⟩ := opens
    exact atom_endsAt_opening legible remaining opens inside
  have notInteger : ∀ token rest, reader.rest = token :: rest → token.tag ≠ Tag.integer := by
    intro token rest remaining same
    exact tagged ⟨token, rest, remaining, same⟩
  have notOpening : ∀ token rest, reader.rest = token :: rest → token.opens ≠ true := by
    intro token rest remaining same
    exact opens ⟨token, rest, remaining, same⟩
  have noOpening : Fails (call table limit) (.reserved Tag.reserved "(") reader := by
    apply reserved_fails
    intro token rest remaining
    exact Bool.eq_false_iff.mpr (notOpening token rest remaining)
  obtain ⟨_, _, failure⟩ := noOpening
  refine atom_endsAt_bottom (integer_fails _ notInteger)
    ⟨_, _, runWith_keepLeft_failure (runWith_keepRight_failure failure)⟩ ?_
  cases remaining : reader.rest with
  | nil =>
      exact noBeginning_nil table
  | cons token rest =>
      exact noBeginning_cons (notInteger token rest remaining)
        (notOpening token rest remaining) rest

end Atoms

section Levels

variable {level : OperatorLevel}
variable {symbol : String}
variable {bound : Nat}

/-- What one round at a level may make of a reader: an operator and an operand, or not. -/
inductive RoundOutcome (table levels : LevelTable) (symbol file : String) (reader : Reader) :
    Result Node → Prop
  | matched
      {location : Location}
      {node : Node}
      {next : Reader}
      {separator : Token}
      {tokens : List Token}
      {expr : Expr}
      (located : location.fileName = file)
      (denotes : node.Denotes file expr)
      (separates : separator.is Tag.operator symbol = true)
      (passes : reader.Passes (separator :: tokens) next)
      (longest : Longest table levels tokens next.rest expr) :
      RoundOutcome table levels symbol file reader (.success location node next)
  | unmatched
      {location : Location}
      {message : String}
      (ends : ∀ separator behind, reader.rest = separator :: behind →
        separator.is Tag.operator symbol = true → NoBeginning table levels behind) :
      RoundOutcome table levels symbol file reader (.failure location message)

/-- A round at a level: its operator and behind it an operand. -/
def round (symbol : String) (levels : LevelTable) : ExprParser Node :=
  (operator symbol).keepRight (parserOf levels)

/-- A legible reader with so many tokens left at most. -/
def LegibleWithin (file : String) (limit bound : Nat) (reader : Reader) : Prop :=
  Legible file limit reader ∧ reader.rest.length ≤ bound

theorem LegibleWithin.of_passes
    {front : List Token}
    (within : LegibleWithin file limit bound reader)
    (passes : reader.Passes front next)
    (balanced : front.countP Token.opens = front.countP Token.closes) :
    LegibleWithin file limit bound next := by
  have length := passes.length_rest
  refine ⟨within.1.of_passes passes balanced, ?_⟩
  have := within.2
  omega

section Rounds

variable (tighter : ∀ {reader}, LegibleWithin file limit bound reader →
  EndsAt table levels file limit reader)

include tighter

theorem round_run
    (symbol : String)
    (within : LegibleWithin file limit bound reader) :
    ∃ result,
      runWith (call table limit) (round symbol levels) reader = pure result ∧
      RoundOutcome table levels symbol file reader result := by
  by_cases separates : ∃ separator behind,
      reader.rest = separator :: behind ∧ separator.is Tag.operator symbol = true
  · obtain ⟨separator, behind, remaining, separates⟩ := separates
    obtain ⟨next, passes, first⟩ := runWith_reserved (call table limit) remaining separates
    have located := within.1.inFile.head remaining
    have sameRest := passes.rest_eq
    rw [remaining, List.singleton_append, List.cons.injEq] at sameRest
    obtain ⟨result, second, outcome⟩ :=
      tighter (within.of_passes passes (balanced_separator separates))
    cases outcome with
    | matched hereIn denotes passesOperand longest =>
        obtain ⟨location, inFile, both⟩ :=
          runWith_keepRight_success first second located hereIn
        exact ⟨_, both, .matched inFile denotes separates (passes.trans passesOperand) longest⟩
    | unmatched none =>
        refine ⟨_, runWith_keepRight_failure_behind first second, .unmatched ?_⟩
        intro other rest same _
        rw [remaining, List.cons.injEq] at same
        rw [← same.2, sameRest.2]
        exact none
  · obtain ⟨_, _, failure⟩ : Fails (call table limit) (operator symbol) reader := by
      apply reserved_fails
      intro separator behind remaining
      apply Bool.eq_false_iff.mpr
      intro same
      exact separates ⟨separator, behind, remaining, same⟩
    refine ⟨_, runWith_keepRight_failure failure, .unmatched ?_⟩
    intro separator behind remaining same
    exact absurd ⟨separator, behind, remaining, same⟩ separates

/-- Rounds end, keep to legible readers and consume at least their operator. -/
theorem round_steady
    (symbol : String) :
    Steady (runWith (call table limit) (round symbol levels))
      (LegibleWithin file limit bound) file := by
  refine ⟨?_, ?_⟩
  · intro reader within
    obtain ⟨result, run, _⟩ := round_run tighter symbol within
    exact ⟨result, run⟩
  · intro reader location node next within run
    obtain ⟨result, run', outcome⟩ := round_run tighter symbol within
    cases run.symm.trans run'
    cases outcome with
    | matched located denotes separates passes longest =>
        have length := passes.length_rest
        rw [List.length_cons] at length
        have balanced := balanced_cons separates longest.derives.balanced
        exact ⟨located, within.of_passes passes balanced, by omega⟩

/-- All rounds together pass over the longest operands. -/
theorem rounds_longest
    {nodes : List Node}
    {stop : Reader}
    (repeats : Repeats (runWith (call table limit) (round symbol levels)) reader nodes stop)
    (within : LegibleWithin file limit bound reader) :
    ∃ operands : List Operand,
      reader.Passes (operands.flatMap Operand.all) stop ∧
      LongestOperands table levels symbol reader.rest operands stop.rest ∧
      List.Forall₂ (Node.Denotes file) nodes (operands.map Operand.expr) := by
  induction repeats with
  | @stop reader _ _ fails =>
      obtain ⟨result, run, outcome⟩ := round_run tighter symbol within
      cases fails.symm.trans run
      cases outcome with
      | unmatched ends =>
          exact ⟨[], .refl reader, .stop ends, .nil⟩
  | more matching later ih =>
      obtain ⟨_, withinNext, _⟩ := (round_steady tighter symbol).keeps within matching
      obtain ⟨result, run, outcome⟩ := round_run tighter symbol within
      cases matching.symm.trans run
      cases outcome with
      | @matched _ _ _ separator tokens expr located denotes separates passes longest =>
          obtain ⟨operands, passesRest, longestRest, denotesRest⟩ := ih withinNext
          refine ⟨⟨separator, tokens, expr⟩ :: operands, ?_, ?_, .cons denotes denotesRest⟩
          · rw [List.flatMap_cons]
            exact passes.trans passesRest
          · rw [passes.rest_eq]
            exact .more separates longest longestRest

/-- A level with a first operand and some rounds behind it combines all operands. -/
theorem levelParser_run
    {here : Location}
    {first : Node}
    {firstExpr : Expr}
    {nodes : List Node}
    {exprs : List Expr}
    {behind stop : Reader}
    (run : runWith (call table limit) (parserOf levels) reader =
      pure (.success here first behind))
    (located : here.fileName = file)
    (firstDenotes : first.Denotes file firstExpr)
    (within : LegibleWithin file limit bound behind)
    (repeats : Repeats (runWith (call table limit) (round level.operator levels)) behind
      nodes stop)
    (restDenotes : List.Forall₂ (Node.Denotes file) nodes exprs) :
    ∃ location node,
      runWith (call table limit) (parserOf (level :: levels)) reader =
        pure (.success location node stop) ∧
      location.fileName = file ∧ node.Denotes file (level.fold firstExpr exprs) := by
  have steady := round_steady tighter level.operator
  change ∃ location node,
    runWith (call table limit) (levelParser level (parserOf levels)) reader = _ ∧ _
  unfold levelParser OperatorLevel.fold
  cases level.associativity with
  | left =>
      obtain ⟨location, inFile, folds⟩ :=
        Level.runWith_leftAssociative steady run located within repeats
          (combine level.operation)
      obtain ⟨node, combines, denotes⟩ := foldlM_combine_denotes firstDenotes restDenotes
      refine ⟨location, node, ?_, inFile, denotes⟩
      rw [combines, pure_bind] at folds
      exact folds
  | right =>
      obtain ⟨location, inFile, reduces⟩ :=
        Level.runWith_rightAssociative steady run located within within.1.inFile.location
          repeats (combine level.operation)
      obtain ⟨node, combines, denotes⟩ := reduceRight_combine_denotes firstDenotes restDenotes
      refine ⟨location, node, ?_, inFile, denotes⟩
      rw [combines, pure_bind] at reduces
      exact reduces

theorem level_endsAt
    (apart : level.operator ∉ operators levels)
    (within : LegibleWithin file limit bound reader) :
    EndsAt table (level :: levels) file limit reader := by
  obtain ⟨result, run, outcome⟩ := tighter within
  cases outcome with
  | unmatched none =>
      refine ⟨_, ?_, .unmatched (none.of_operand level)⟩
      change runWith (call table limit) (levelParser level (parserOf levels)) reader = _
      unfold levelParser
      cases level.associativity with
      | left =>
          exact Level.runWith_leftAssociative_failure run (combine level.operation)
      | right =>
          exact Level.runWith_rightAssociative_failure run (combine level.operation)
  | matched located denotes passes longest =>
      have withinBehind := within.of_passes passes longest.derives.balanced
      obtain ⟨nodes, stop, repeats⟩ :=
        (round_steady tighter level.operator).exists_repeats withinBehind
      obtain ⟨operands, passesRest, longestRest, denotesRest⟩ :=
        rounds_longest tighter repeats withinBehind
      obtain ⟨location, node, whole, inFile, nodeDenotes⟩ :=
        levelParser_run tighter run located denotes withinBehind repeats denotesRest
      exact ⟨_, whole, .matched inFile nodeDenotes (passes.trans passesRest)
        (longest_level apart longest longestRest)⟩

end Rounds
end Levels

/-- All levels of a table with distinct operators match the longest beginning. -/
theorem endsAt_of_legible
    (distinctTable : Distinct table)
    (distinct : Distinct levels)
    (legible : Legible file limit reader) :
    EndsAt table levels file limit reader := by
  induction length : reader.rest.length using Nat.strongRecOn
    generalizing levels limit reader with
  | ind bound ih =>
      have within : LegibleWithin file limit bound reader := ⟨legible, Nat.le_of_eq length⟩
      clear legible length
      induction levels generalizing reader with
      | nil =>
          refine atom_endsAt within.1 ?_
          intro inner next legibleInside shorter
          exact ih next.rest.length (Nat.lt_of_lt_of_le shorter within.2) distinctTable
            legibleInside rfl
      | cons level levels ihLevels =>
          exact level_endsAt (ihLevels (List.Pairwise.of_cons distinct))
            distinct.not_mem_operators within

end Arithmetic
end Precedence
