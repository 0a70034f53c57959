import Precedence.Proofs.Arithmetic.Correspondence
import Precedence.Proofs.Arithmetic.Provenance
import Precedence.Proofs.Parser.Likeness

/-!
# Levels that make no difference

A level reads an operand of the tighter levels and then its operator with another operand, as
often as these match. Where the tighter levels only stop in front of what does not match so,
the level is *idle*: it gives what they give, although perhaps with another location. Parsing
with an idle level has the outcome that it has without it, and so at any depth, as the grammar
that parentheses enter again has the same levels (`parseWithin_idle`).

There are two reasons for a level to be idle.

* No token is its operator (`parse_absent_operator`).
* A tighter level has the same operator (`parse_repeated_operator`). The tighter levels stop in
  front of this operator only if no operand of the still tighter ones follows it; but then no
  operand follows it at all.
-/

namespace Precedence
namespace Arithmetic

open Precedence.Parser LevelTable
open Correspondence (likeness)

variable {table levels : LevelTable}
variable {calls calls' : Unit → Reader → Action (Result Node)}
variable {origin reader place stop : Reader}
variable {file : String}

/-- The trees are the same where only the locations of matches differ. -/
theorem kept_likeness
    (inFile : origin.InFile file) :
    Kept (likeness inFile) Eq where
  number value here there site := by
    rw [site.1]
  combine operation left left' right right' sameLeft sameRight := by
    rw [sameLeft, sameRight]
    exact .refl _

section Idle

variable {level : OperatorLevel}
variable {here : Location}
variable {node : Node}

/-- Wherever the levels stop among the tokens, the operator with an operand behind it fails. -/
def Idle (origin : Reader) (symbol : String) (levels : LevelTable) : Prop :=
  ∀ {calls place here node stop}, origin.SameTokens stop →
    runWith calls (parserOf levels) place = .ok (.success here node stop) →
    Fails calls (round symbol levels) stop

/-- A level has the outcome of its first operand, unless that is a match. -/
theorem levelParser_of_unmatched
    {next : ExprParser Node}
    (unmatched : ∀ here node stop,
      runWith calls next place ≠ .ok (.success here node stop)) :
    runWith calls (levelParser level next) place = runWith calls next place := by
  unfold levelParser
  cases ran : runWith calls next place with
  | error fault =>
      cases level.associativity <;> simp only [runWith, rep1Sep, Parser.map, ran] <;> rfl
  | ok result =>
      cases result with
      | failure location message =>
          cases level.associativity <;> simp only [runWith, rep1Sep, Parser.map, ran] <;> rfl
      | success here node stop =>
          exact absurd ran (unmatched here node stop)

/-- A level stops behind its first operand if no operator with an operand follows. -/
theorem levelParser_of_single
    (inFile : origin.InFile file)
    (ran : runWith calls (parserOf levels) place = .ok (.success here node stop))
    (hereIn : here.fileName = file)
    (stopIn : origin.SameTokens stop)
    (fails : Fails calls (round level.operator levels) stop) :
    ∃ location,
      location.fileName = file ∧
      runWith calls (levelParser level (parserOf levels)) place =
        .ok (.success location node stop) := by
  obtain ⟨_, _, fails⟩ := fails
  unfold round at fails
  unfold levelParser
  cases level.associativity with
  | left =>
      refine ⟨here, hereIn, ?_⟩
      rw [runWith, ran, onSuccess_ok]
      cases stop.rest <;> rw [foldFrom, fails] <;> rfl
  | right =>
      have nothing :
          runWith calls ((operator level.operator).keepRight (parserOf levels)).rep stop =
            .ok (.success stop.location [] stop) := by
        rw [runWith]
        cases stop.rest <;> rw [repeatFrom, fails] <;> rfl
      obtain ⟨location, inside, both⟩ := runWith_seq_success ran nothing hereIn
        (inFile.of_sameTokens stopIn).location
      refine ⟨location, inside, ?_⟩
      have operands := runWith_map_success (fun values => values.1 :: values.2) both
      rw [runWith, rep1Sep, operands, onSuccess_success]
      rfl

/-- An idle level gives what the tighter levels give. -/
theorem levelParser_idle
    (inFile : origin.InFile file)
    (idle : Idle origin level.operator levels)
    (same : (likeness inFile).Simulates calls calls' Eq (parserOf levels) (parserOf levels)) :
    (likeness inFile).Simulates calls calls' Eq (parserOf (level :: levels)) (parserOf levels) := by
  intro place place' placed
  have ends := same place place' placed
  change (likeness inFile).Outcomes Eq (runWith calls (levelParser level (parserOf levels)) place) _
  generalize ran : runWith calls (parserOf levels) place = x,
    runWith calls' (parserOf levels) place' = y at ends
  cases ends with
  | error equal =>
      rw [levelParser_of_unmatched (by simp [ran]), ran]
      exact .error equal
  | ok related =>
      cases related with
      | failure site message =>
          rw [levelParser_of_unmatched (by simp [ran]), ran]
          exact .ok (.failure site message)
      | success located equal stopPlaced =>
          obtain ⟨location, inside, single⟩ :=
            levelParser_of_single inFile ran located.1 stopPlaced.2 (idle stopPlaced.2 ran)
          rw [single]
          exact .ok (.success ⟨inside, located.2⟩ equal stopPlaced)

end Idle

section Parse

variable {level : OperatorLevel}

/-- Whatever calls do, they do alike with an idle level and without it. -/
theorem call_idle
    (inFile : origin.InFile file)
    (idle : Idle origin level.operator levels)
    (front : LevelTable)
    (limit : Nat) :
    (likeness inFile).Simulates (call (front ++ level :: levels) limit) (call (front ++ levels) limit)
      Eq (.forward ()) (.forward ()) := by
  induction limit with
  | zero => exact fun _ _ _ => .error rfl
  | succ limit ih =>
      have tighter := parserOf_simulates (kept_likeness inFile) levels ih
      exact append_simulates (kept_likeness inFile) front (levelParser_idle inFile idle tighter)

/-- The location of a match is in neither trees nor problems. -/
theorem treeOf_alike
    {inFile : origin.InFile file}
    {x y : Action (Result Node)}
    (alike : (likeness inFile).Outcomes Eq x y) :
    treeOf reader x = treeOf reader y := by
  cases alike with
  | error equal => rw [equal]
  | ok related =>
      cases related with
      | failure site message => rw [site.1]
      | success located equal stopPlaced => rw [equal]; rfl

/-- An idle level at any place of a table makes no difference to a parse. -/
theorem parseWithin_idle
    {fileName : String}
    {tokens : List Token}
    (oneFile : InOneFile tokens)
    (idle : Idle (.ofTokens fileName tokens) level.operator levels)
    (front : LevelTable)
    (limit : Nat) :
    parseWithin limit (front ++ level :: levels) fileName tokens =
      parseWithin limit (front ++ levels) fileName tokens := by
  have inFile : (Reader.ofTokens fileName tokens).InFile _ :=
    Reader.inFile_of_inOneFile (by rwa [Reader.tokens_ofTokens])
  have kept := kept_likeness inFile
  have tighter := parserOf_simulates kept levels (call_idle inFile idle front limit)
  have whole := (append_simulates kept front (levelParser_idle inFile idle tighter)).phrase
  rw [parseWithin_eq, parseWithin_eq]
  exact treeOf_alike (whole _ _ ⟨rfl, .refl _⟩)

end Parse

section Absent

variable {symbol : String}

/-- A level is idle if no token is its operator. -/
theorem idle_of_absent
    (absent : ∀ token ∈ origin.tokens, token.is Tag.operator symbol = false)
    (levels : LevelTable) :
    Idle origin symbol levels := by
  intro calls place here node stop stopIn _
  obtain ⟨_, _, fails⟩ : Fails calls (operator symbol) stop := by
    refine reserved_fails calls fun token rest remaining => absent token ?_
    rw [← stopIn.tokens_eq, Reader.tokens, remaining]
    exact List.mem_append_right _ List.mem_cons_self
  exact ⟨_, _, runWith_keepRight_failure fails⟩

/--
A level whose operator no token has makes no difference to a parse, wherever it stands, and
also if the limit on nesting ends the parse.
-/
theorem parse_absent_operator
    (front back : LevelTable)
    (level : OperatorLevel)
    (fileName : String)
    (tokens : List Token)
    (oneFile : InOneFile tokens)
    (absent : ∀ token ∈ tokens, token.is Tag.operator level.operator = false) :
    parse (front ++ level :: back) fileName tokens = parse (front ++ back) fileName tokens := by
  refine parseWithin_idle oneFile (idle_of_absent ?_ back) front nestingLimit
  rwa [Reader.tokens_ofTokens]

/-- A power between the levels of sums, which `1 - (2 - 3) +` does not mention. -/
theorem parse_absent_operator_power :
    let place := Location.startOf "sum"
    let integer : String → Token := fun text => ⟨text, Tag.integer, place⟩
    let minus : Token := ⟨"-", Tag.operator, place⟩
    let tokens := [integer "1", minus, ⟨"(", Tag.reserved, place⟩, integer "2", minus, integer "3",
      ⟨")", Tag.reserved, place⟩, ⟨"+", Tag.operator, place⟩]
    let front : LevelTable := [⟨"+", .addition, .left⟩]
    let back : LevelTable := [⟨"-", .subtraction, .left⟩]
    let power : OperatorLevel := ⟨"^", .exponentiation, .right⟩
    InOneFile tokens ∧
    (∀ token ∈ tokens, token.is Tag.operator power.operator = false) ∧
    parse (front ++ power :: back) "sum" tokens = parse (front ++ back) "sum" tokens := by
  intro place integer minus tokens front back power
  have oneFile : InOneFile tokens := by
    decide
  have absent : ∀ token ∈ tokens, token.is Tag.operator power.operator = false := by
    decide
  exact ⟨oneFile, absent, parse_absent_operator front back power "sum" tokens oneFile absent⟩

end Absent

section Repeated

variable {symbol : String}
variable {here : Location}
variable {node : Node}

theorem fails_of_append
    (front : LevelTable)
    (fails : Fails calls (parserOf levels) place) :
    Fails calls (parserOf (front ++ levels)) place := by
  induction front with
  | nil => exact fails
  | cons level front ih =>
      obtain ⟨location, message, fails⟩ := ih
      refine ⟨location, message, ?_⟩
      change runWith calls (levelParser level (parserOf (front ++ levels))) place = _
      rw [levelParser_of_unmatched (by simp [fails, pure, Except.pure]), fails]

/-- Where no operand of some levels follows the operator, none of looser levels does. -/
theorem round_fails_of_append
    (front : LevelTable)
    (fails : Fails calls (round symbol levels) stop) :
    Fails calls (round symbol (front ++ levels)) stop := by
  obtain ⟨location, message, fails⟩ := fails
  rcases seq_failure_inv (process_failure_inv fails) with fails | ⟨_, _, _, ran, fails⟩
  · exact ⟨_, _, runWith_keepRight_failure fails⟩
  · obtain ⟨_, _, failsToo⟩ := fails_of_append front ⟨_, _, fails⟩
    exact ⟨_, _, runWith_keepRight_failure_behind ran failsToo⟩

/-- Levels stop only where every operator among theirs is followed by no tighter operand. -/
theorem round_fails_at_stop
    (later : OperatorLevel)
    (middle back : LevelTable)
    (ran : runWith calls (parserOf (middle ++ later :: back)) place =
      .ok (.success here node stop)) :
    Fails calls (round later.operator back) stop := by
  induction middle generalizing place here node stop with
  | nil =>
      obtain ⟨_, outcome, _⟩ := levelParser_inv [] ran
      cases outcome with
      | matched _ repeats _ => exact repeats.fails_at_stop
  | cons level middle ih =>
      obtain ⟨_, outcome, _⟩ := levelParser_inv [] ran
      cases outcome with
      | matched ranFirst repeats _ =>
          -- The stop is that of the first operand, or of the operand of the last round.
          refine repeats.invariant (ih ranFirst) fun ranRound => ?_
          obtain ⟨_, _, _, _, _, ranOperand⟩ := keepRight_inv ranRound
          exact ih ranOperand

/-- A level is idle if a tighter one has the same operator. -/
theorem round_fails_of_repeated
    {later : OperatorLevel}
    {middle back : LevelTable}
    (repeated : later.operator = symbol)
    (ran : runWith calls (parserOf (middle ++ later :: back)) place =
      .ok (.success here node stop)) :
    Fails calls (round symbol (middle ++ later :: back)) stop := by
  have tightest := round_fails_at_stop later middle back ran
  rw [repeated] at tightest
  have behind := round_fails_of_append (middle ++ [later]) tightest
  rwa [List.append_assoc] at behind

/--
Of two levels with the same operator the looser one makes no difference to a parse. Wherever
the levels behind it stop, the operator with an operand behind it does not match, so the level
never combines two operands. All binary nodes of a tree are of the other levels.
-/
theorem parse_repeated_operator
    (front middle back : LevelTable)
    (earlier later : OperatorLevel)
    (fileName : String)
    (tokens : List Token)
    (repeated : later.operator = earlier.operator)
    (oneFile : InOneFile tokens) :
    parse (front ++ earlier :: (middle ++ later :: back)) fileName tokens =
      parse (front ++ (middle ++ later :: back)) fileName tokens ∧
    (∀ calls place here node stop,
      runWith calls (parserOf (middle ++ later :: back)) place = .ok (.success here node stop) →
      Fails calls (round earlier.operator (middle ++ later :: back)) stop) ∧
    ∀ tree,
      parse (front ++ earlier :: (middle ++ later :: back)) fileName tokens = .ok tree →
      Reads (front ++ (middle ++ later :: back)) tokens tree := by
  have without : parse (front ++ earlier :: (middle ++ later :: back)) fileName tokens =
      parse (front ++ (middle ++ later :: back)) fileName tokens :=
    parseWithin_idle oneFile (fun _ ran => round_fails_of_repeated repeated ran) front nestingLimit
  refine ⟨without, ?_, ?_⟩
  · intro calls place here node stop ran
    exact round_fails_of_repeated repeated ran
  · intro tree parses
    rw [without] at parses
    exact reads_of_parseWithin parses

/-- Two levels of `-` with one of `*` between them, in front of `1 - 2 * 3 -`. -/
theorem parse_repeated_operator_minus :
    let place := Location.startOf "sum"
    let integer : String → Token := fun text => ⟨text, Tag.integer, place⟩
    let minus : Token := ⟨"-", Tag.operator, place⟩
    let tokens := [integer "1", minus, integer "2", ⟨"*", Tag.operator, place⟩, integer "3", minus]
    let earlier : OperatorLevel := ⟨"-", .subtraction, .left⟩
    let middle : LevelTable := [⟨"*", .multiplication, .left⟩]
    let later : OperatorLevel := ⟨"-", .addition, .right⟩
    later.operator = earlier.operator ∧
    InOneFile tokens ∧
    parse (earlier :: (middle ++ [later])) "sum" tokens =
      parse (middle ++ [later]) "sum" tokens := by
  intro place integer minus tokens earlier middle later
  have oneFile : InOneFile tokens := by
    decide
  exact ⟨rfl, oneFile,
    (parse_repeated_operator [] middle [] earlier later "sum" tokens rfl oneFile).1⟩

end Repeated

end Arithmetic
end Precedence
