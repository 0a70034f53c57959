import Precedence.Proofs.Arithmetic.LongestPrefix
import Precedence.Proofs.Parser.Reentry

/-!
# What a parser of levels reads

Of any table, also one that repeats operators, and whatever its tokens are: a node that a
parser of levels builds was read from just the tokens that the parser passes over. `Reads`
says how, without levels: integers, parentheses around what is read, and binary nodes with an
operator token between what their operands were read from.

* `reads_of_parserOf`: a match reads the tokens that it passes over.
* `failure_of_parserOf`: a failure is that of the bottom parser, at the first token.
* `calls_of_parserOf`: the grammar is entered again behind an open parenthesis only.
-/

namespace Precedence

open LevelTable

/-- The node was read from the tokens, where operations are those of levels of the table. -/
inductive Reads (table : LevelTable) : List Token → Node → Prop
  | integer
      {token : Token}
      {value : Int}
      (tagged : token.tag = Tag.integer)
      (reads : Numeral.read token.text = .ok value) :
      Reads table [token] (.number value token.location)
  | group
      {opening closing : Token}
      {tokens : List Token}
      {node : Node}
      (opens : opening.opens = true)
      (inner : Reads table tokens node)
      (closes : closing.closes = true) :
      Reads table (opening :: (tokens ++ [closing])) node
  | binary
      {level : OperatorLevel}
      {separator : Token}
      {leftTokens rightTokens : List Token}
      {left right : Node}
      {location : Location}
      (among : level ∈ table)
      (separates : separator.is Tag.operator level.operator = true)
      (leftReads : Reads table leftTokens left)
      (rightReads : Reads table rightTokens right)
      (covers : left.location.combine? right.location = some location) :
      Reads table (leftTokens ++ separator :: rightTokens)
        (.binary (some level.operation) left right location)

theorem Reads.tokens_ne_nil
    {table : LevelTable}
    {tokens : List Token}
    {node : Node}
    (reads : Reads table tokens node) :
    tokens ≠ [] := by
  cases reads <;> simp

/-- What is read closes what it opens. -/
theorem Reads.balanced
    {table : LevelTable}
    {tokens : List Token}
    {node : Node}
    (reads : Reads table tokens node) :
    tokens.countP Token.opens = tokens.countP Token.closes := by
  induction reads with
  | @integer token value tagged reads =>
      have other : token.tag ≠ Tag.reserved := by
        rw [tagged]
        decide
      simp [Token.not_opens_of_tag other, Token.not_closes_of_tag other]
  | @group opening closing tokens node opens inner closes ih =>
      simp [opens, closes, Token.not_closes_of_opens opens, Token.not_opens_of_closes closes, ih]
  | binary among separates leftReads rightReads covers ihLeft ihRight =>
      rw [List.countP_append, List.countP_append, ihLeft, balanced_cons separates ihRight]

namespace Arithmetic

open Precedence.Parser

variable {table levels : LevelTable}
variable {calls : Unit → Reader → Action (Result Node)}
variable {reader next place : Reader}
variable {location : Location}
variable {node : Node}

/-- Whatever a call matches was read from the tokens that it passes over. -/
def Sound (table : LevelTable) (calls : Unit → Reader → Action (Result Node)) : Prop :=
  ∀ {reader location node next}, calls () reader = .ok (.success location node next) →
    ∃ front, reader.Passes front next ∧ Reads table front node

section Tokens

variable {tag : Tag} {text value : String}

theorem reserved_inv
    (ran : runWith calls (.reserved tag text) reader = .ok (.success location value next)) :
    ∃ token, reader.Passes [token] next ∧ token.is tag text = true := by
  rw [runWith] at ran
  obtain ⟨token, passes, same, _, _⟩ := expect_inv (Except.ok.inj ran)
  exact ⟨token, passes, same⟩

theorem integer_inv
    (ran : runWith calls integer reader = .ok (.success location node next)) :
    ∃ token,
      reader.Passes [token] next ∧ Reads table [token] node := by
  obtain ⟨text, found, acted⟩ := process_inv ran
  rw [runWith] at found
  obtain ⟨token, passes, same, rfl, rfl⟩ := expect_inv (Except.ok.inj found)
  cases reads : Numeral.read token.text with
  | error error =>
      rw [reads] at acted
      cases acted
  | ok number =>
      rw [reads] at acted
      cases acted
      exact ⟨token, passes, .integer (beq_iff_eq.mp same) reads⟩

end Tokens

theorem atom_reads
    (sound : Sound table calls)
    (ran : runWith calls atom reader = .ok (.success location node next)) :
    ∃ front, reader.Passes front next ∧ Reads table front node := by
  rw [atom_eq] at ran
  rcases orElse_inv ran with ⟨_, _, _, ran, same⟩ | ⟨_, ran⟩
  · cases same
    obtain ⟨token, passes, reads⟩ := integer_inv ran
    exact ⟨[token], passes, reads⟩
  rcases orElse_inv ran with ⟨_, _, _, ran, same⟩ | ⟨_, ran⟩
  · cases same
    obtain ⟨_, behind, _, _, ranOpened, ranClosing⟩ := keepLeft_inv ran
    obtain ⟨_, _, inside, _, ranOpening, ranInside⟩ := keepRight_inv ranOpened
    obtain ⟨opening, passesOpening, opens⟩ := reserved_inv ranOpening
    obtain ⟨closing, passesClosing, closes⟩ := reserved_inv ranClosing
    rw [runWith] at ranInside
    obtain ⟨front, passes, reads⟩ := sound ranInside
    exact ⟨opening :: (front ++ [closing]), passesOpening.trans (passes.trans passesClosing),
      .group opens reads closes⟩
  · cases ran

section Levels

variable {level : OperatorLevel}
variable {symbol : String}

/-- The piece is an operator token with the tokens of an operand behind it. -/
def ReadsRound (table : LevelTable) (symbol : String) (piece : List Token) (node : Node) :
    Prop :=
  ∃ separator tokens,
    piece = separator :: tokens ∧ separator.is Tag.operator symbol = true ∧
    Reads table tokens node

theorem combine_inv
    {operation : Operation}
    {left right : Node}
    (combined : combine operation left right = .ok node) :
    ∃ location,
      left.location.combine? right.location = some location ∧
      node = .binary (some operation) left right location := by
  unfold combine cover at combined
  cases covers : left.location.combine? right.location with
  | none =>
      rw [covers] at combined
      cases combined
  | some location =>
      rw [covers] at combined
      cases combined
      exact ⟨location, rfl, rfl⟩

/-- Nodes that are combined were read from both operands and the operator between them. -/
theorem reads_of_combine
    {left right : Node}
    {leftTokens piece : List Token}
    (among : level ∈ table)
    (leftReads : Reads table leftTokens left)
    (round : ReadsRound table level.operator piece right)
    (combined : combine level.operation left right = .ok node) :
    Reads table (leftTokens ++ piece) node := by
  obtain ⟨separator, tokens, rfl, separates, rightReads⟩ := round
  obtain ⟨location, covers, rfl⟩ := combine_inv combined
  exact .binary among separates leftReads rightReads covers

theorem foldlM_combine_reads
    {first : Node}
    {nodes : List Node}
    {tokens : List Token}
    {pieces : List (List Token)}
    (among : level ∈ table)
    (firstReads : Reads table tokens first)
    (rounds : List.Forall₂ (ReadsRound table level.operator) pieces nodes)
    (folds : nodes.foldlM (combine level.operation) first = .ok node) :
    Reads table (tokens ++ pieces.flatten) node := by
  induction rounds generalizing first tokens with
  | nil =>
      cases folds
      simpa using firstReads
  | @cons piece second pieces nodes round _ ih =>
      obtain ⟨combined, combines, folds⟩ := bind_inv folds
      have reads := ih (reads_of_combine among firstReads round combines) folds
      rwa [List.append_assoc] at reads

theorem reduceRight_combine_reads
    {first : Node}
    {nodes : List Node}
    {tokens : List Token}
    {pieces : List (List Token)}
    (among : level ∈ table)
    (firstReads : Reads table tokens first)
    (rounds : List.Forall₂ (ReadsRound table level.operator) pieces nodes)
    (reduces : Level.reduceRight (combine level.operation) (first :: nodes) = .ok node) :
    Reads table (tokens ++ pieces.flatten) node := by
  induction rounds generalizing first tokens node with
  | nil =>
      cases reduces
      simpa using firstReads
  | @cons piece second pieces nodes round _ ih =>
      obtain ⟨separator, others, rfl, separates, secondReads⟩ := round
      obtain ⟨right, rest, combines⟩ := bind_inv reduces
      have rightReads := ih secondReads rest
      exact reads_of_combine among firstReads ⟨separator, _, rfl, separates, rightReads⟩ combines

section Rounds

variable (tighter : ∀ {reader location node next},
  runWith calls (parserOf levels) reader = .ok (.success location node next) →
  ∃ front, reader.Passes front next ∧ Reads table front node)

include tighter

theorem round_reads
    (ran : runWith calls (round symbol levels) reader = .ok (.success location node next)) :
    ∃ piece, reader.Passes piece next ∧ ReadsRound table symbol piece node := by
  obtain ⟨_, _, middle, _, ranOperator, ranOperand⟩ := keepRight_inv ran
  obtain ⟨separator, passes, separates⟩ := reserved_inv ranOperator
  obtain ⟨tokens, passesOperand, reads⟩ := tighter ranOperand
  exact ⟨separator :: tokens, passes.trans passesOperand, separator, tokens, rfl, separates,
    reads⟩

theorem rounds_read
    {nodes : List Node}
    {stop : Reader}
    (repeats : Repeats (runWith calls (round symbol levels)) reader nodes stop) :
    ∃ pieces,
      reader.Passes pieces.flatten stop ∧
      List.Forall₂ (ReadsRound table symbol) pieces nodes := by
  induction repeats with
  | stop _ =>
      exact ⟨[], .refl _, .nil⟩
  | more matching later ih =>
      obtain ⟨piece, passes, reads⟩ := round_reads tighter matching
      obtain ⟨pieces, passesRest, rounds⟩ := ih
      exact ⟨piece :: pieces, passes.trans passesRest, .cons reads rounds⟩

end Rounds

/-- The outcome of a level, as a first operand with rounds behind it. -/
theorem levelParser_inv
    (table : LevelTable)
    {result : Result Node}
    (ran : runWith calls (parserOf (level :: levels)) reader = .ok result) :
    ∃ fold,
      LevelRun calls (parserOf levels) (operator level.operator) fold reader result ∧
      ∀ {tokens pieces first nodes node}, level ∈ table → Reads table tokens first →
        List.Forall₂ (ReadsRound table level.operator) pieces nodes →
        fold first nodes = .ok node → Reads table (tokens ++ pieces.flatten) node := by
  change runWith calls (levelParser level (parserOf levels)) reader = _ at ran
  unfold levelParser at ran
  cases side : level.associativity with
  | left =>
      rw [side] at ran
      exact ⟨_, leftAssociative_inv ran, foldlM_combine_reads⟩
  | right =>
      rw [side] at ran
      exact ⟨_, rightAssociative_inv ran, reduceRight_combine_reads⟩

/-- A match of some levels reads just the tokens that it passes over. -/
theorem reads_of_parserOf
    (sound : Sound table calls)
    (among : ∀ level ∈ levels, level ∈ table)
    (ran : runWith calls (parserOf levels) reader = .ok (.success location node next)) :
    ∃ front, reader.Passes front next ∧ Reads table front node := by
  induction levels generalizing reader location node next with
  | nil => exact atom_reads sound ran
  | cons level levels ih =>
      have tighter : ∀ {reader location node next},
          runWith calls (parserOf levels) reader = .ok (.success location node next) →
          ∃ front, reader.Passes front next ∧ Reads table front node :=
        ih fun other there => among other (List.mem_cons_of_mem level there)
      obtain ⟨fold, outcome, reads⟩ := levelParser_inv table ran
      cases outcome with
      | matched ranFirst repeats folds =>
          obtain ⟨tokens, passes, firstReads⟩ := tighter ranFirst
          obtain ⟨pieces, passesRest, rounds⟩ := rounds_read tighter repeats
          exact ⟨tokens ++ pieces.flatten, passes.trans passesRest,
            reads (among level List.mem_cons_self) firstReads rounds folds⟩

/-- A failure of some levels is that of the bottom parser, where the levels began. -/
theorem failure_of_parserOf
    {message : String}
    (ran : runWith calls (parserOf levels) reader = .ok (.failure location message)) :
    location = reader.location ∧ message = Level.bottomMessage := by
  induction levels with
  | nil =>
      change runWith calls atom reader = _ at ran
      rw [atom_eq] at ran
      rcases orElse_inv ran with ⟨_, _, _, _, same⟩ | ⟨_, ran⟩
      · cases same
      rcases orElse_inv ran with ⟨_, _, _, _, same⟩ | ⟨_, ran⟩
      · cases same
      · cases ran
        exact ⟨rfl, rfl⟩
  | cons level levels ih =>
      obtain ⟨fold, outcome, _⟩ := levelParser_inv [] ran
      cases outcome with
      | unmatched fails => exact ih fails

end Levels

section Calls

variable {level : OperatorLevel}
variable {symbol : String}

/-- The place is behind balanced tokens and one more open parenthesis. -/
def Enters (reader place : Reader) : Prop :=
  ∃ front opening,
    reader.Passes (front ++ [opening]) place ∧ opening.opens = true ∧
    front.countP Token.opens = front.countP Token.closes

theorem Enters.of_passes
    {front : List Token}
    (enters : Enters next place)
    (passes : reader.Passes front next)
    (balanced : front.countP Token.opens = front.countP Token.closes) :
    Enters reader place := by
  obtain ⟨others, opening, passesOn, opens, balancedOn⟩ := enters
  refine ⟨front ++ others, opening, ?_, opens, ?_⟩
  · rw [List.append_assoc]
    exact passes.trans passesOn
  · rw [List.countP_append, List.countP_append, balanced, balancedOn]

theorem calls_of_atom
    (made : Calls calls () place atom reader) :
    Enters reader place := by
  rcases made with none | ⟨_, made | ⟨_, none⟩⟩
  · cases none
  · rcases made with (none | ⟨_, _, middle, ran, _, rfl⟩) | ⟨_, _, _, _, none⟩
    · cases none
    · obtain ⟨opening, passes, opens⟩ := reserved_inv ran
      exact ⟨[], opening, passes, opens, rfl⟩
    · cases none
  · cases none

theorem ReadsRound.balanced
    {piece : List Token}
    (round : ReadsRound table symbol piece node) :
    piece.countP Token.opens = piece.countP Token.closes := by
  obtain ⟨separator, tokens, rfl, separates, reads⟩ := round
  exact balanced_cons separates reads.balanced

section Rounds

variable (tighter : ∀ {reader location node next},
  runWith calls (parserOf levels) reader = .ok (.success location node next) →
  ∃ front, reader.Passes front next ∧ Reads table front node)

include tighter

/-- A loop over rounds only stands behind balanced tokens. -/
theorem passes_of_reaches
    {α : Type}
    {combine : α → Node → Location → Action α}
    {rounds : List Token}
    {value : α}
    (reaches : Reaches (runWith calls (round symbol levels)) combine rounds location value
      reader place) :
    ∃ front, reader.Passes front place ∧
      front.countP Token.opens = front.countP Token.closes := by
  induction reaches with
  | here => exact ⟨[], .refl _, rfl⟩
  | next matching _ _ _ ih =>
      obtain ⟨piece, passes, reads⟩ := round_reads tighter matching
      obtain ⟨front, passesOn, balanced⟩ := ih
      refine ⟨piece ++ front, passes.trans passesOn, ?_⟩
      rw [List.countP_append, List.countP_append, reads.balanced, balanced]

omit tighter in
theorem calls_of_round
    (deeper : ∀ {reader}, Calls calls () place (parserOf levels) reader → Enters reader place)
    (made : Calls calls () place (round symbol levels) reader) :
    Enters reader place := by
  rcases made with none | ⟨_, _, middle, ran, made⟩
  · cases none
  · obtain ⟨separator, passes, separates⟩ := reserved_inv ran
    exact (deeper made).of_passes passes (balanced_separator separates)

/-- Behind the first operand of a level calls are made in the rounds that it comes to. -/
theorem calls_behind
    {α : Type}
    {combine : α → Node → Location → Action α}
    {rounds : List Token}
    {here : Location}
    {value : α}
    {middle : Reader}
    (deeper : ∀ {reader}, Calls calls () place (parserOf levels) reader → Enters reader place)
    (ran : runWith calls (parserOf levels) reader = .ok (.success location node next))
    (reaches : Reaches (runWith calls (round symbol levels)) combine rounds here value next
      middle)
    (made : Calls calls () place (round symbol levels) middle) :
    Enters reader place := by
  obtain ⟨front, passes, reads⟩ := tighter ran
  obtain ⟨others, passesOn, balanced⟩ := passes_of_reaches tighter reaches
  have behindFirst := (calls_of_round deeper made).of_passes passesOn balanced
  exact behindFirst.of_passes passes reads.balanced

theorem calls_of_level
    (deeper : ∀ {reader}, Calls calls () place (parserOf levels) reader → Enters reader place)
    (made : Calls calls () place (parserOf (level :: levels)) reader) :
    Enters reader place := by
  change Calls calls () place (levelParser level (parserOf levels)) reader at made
  unfold levelParser at made
  cases side : level.associativity with
  | left =>
      rw [side] at made
      rcases made with made | ⟨_, _, behind, middle, ran, reaches, made⟩
      · exact deeper made
      · exact calls_behind tighter deeper ran reaches made
  | right =>
      rw [side] at made
      rcases made with made | ⟨_, _, behind, ran, middle, reaches, made⟩
      · exact deeper made
      · exact calls_behind tighter deeper ran reaches made

end Rounds

/-- The grammar is entered again behind an open parenthesis, and only there. -/
theorem calls_of_parserOf
    (sound : Sound table calls)
    (among : ∀ level ∈ levels, level ∈ table)
    (made : Calls calls () place (parserOf levels) reader) :
    Enters reader place := by
  induction levels generalizing reader with
  | nil => exact calls_of_atom made
  | cons level levels ih =>
      have others : ∀ level ∈ levels, level ∈ table :=
        fun other there => among other (List.mem_cons_of_mem level there)
      exact calls_of_level (reads_of_parserOf sound others) (ih others) made

end Calls

end Arithmetic
end Precedence
