import Precedence.Proofs.Arithmetic.Provenance
import Precedence.Proofs.Parser.Faults

/-!
# How a parse ends

A parse of tokens of one file ends with a tree, with a diagnostic in the file, or with the
error of an integer token that is no numeral. No other fault of a parser is reached
(`parserOf_faults`): locations are in the file, each round of a loop has an operator token, and
there is always an operand to begin with.
-/

namespace Precedence

open LevelTable

namespace Reads

variable {table : LevelTable}
variable {tokens : List Token}
variable {node : Node}
variable {file : String}

/-- What is read from tokens of a file denotes an expression there. -/
theorem denotes
    (reads : Reads table tokens node)
    (inFile : ∀ token ∈ tokens, token.location.fileName = file) :
    ∃ expr, node.Denotes file expr := by
  induction reads with
  | integer tagged reads => exact ⟨_, rfl, inFile _ List.mem_cons_self⟩
  | group opens inner closes ih =>
      exact ih fun token there => inFile token (by simp [there])
  | binary among separates leftReads rightReads covers ihLeft ihRight =>
      obtain ⟨leftExpr, leftDenotes⟩ := ihLeft fun token there => inFile token (by simp [there])
      obtain ⟨rightExpr, rightDenotes⟩ := ihRight fun token there => inFile token (by simp [there])
      obtain ⟨location, covers', located⟩ :=
        Location.exists_combine? leftDenotes.located rightDenotes.located
      cases covers.symm.trans covers'
      exact ⟨_, Node.expr?_binary_iff.mpr
        ⟨_, leftExpr, rightExpr, rfl, leftDenotes.expr_eq, rightDenotes.expr_eq, rfl⟩, located⟩

end Reads

namespace Arithmetic

open Precedence.Parser

/-- A fault that tells of the nesting, or of an integer among the tokens that is no numeral. -/
inductive Blames (tokens : List Token) : Fault Numeral.Error → Prop
  | nesting : Blames tokens .nestedTooDeeply
  | integer
      {token : Token}
      {error : Numeral.Error}
      (there : token ∈ tokens)
      (tagged : token.tag = Tag.integer)
      (unreadable : Numeral.read token.text = .error error) :
      Blames tokens (.action error)

/-- The fault is to be blamed on the tokens that remain. -/
def BlamesRest (reader : Reader) (fault : Fault Numeral.Error) : Prop :=
  Blames reader.rest fault

theorem backward_blamesRest : Backward BlamesRest := by
  intro reader front next fault passes blames
  cases blames with
  | nesting => exact .nesting
  | integer there tagged unreadable =>
      refine .integer ?_ tagged unreadable
      rw [passes.rest_eq]
      exact List.mem_append_right front there

variable {table levels : LevelTable}
variable {calls : Unit → Reader → Action (Result Node)}
variable {file symbol : String}
variable {reader : Reader}

/-- A node that denotes an expression in the file. -/
def DenotesIn (file : String) (node : Node) : Prop :=
  ∃ expr, node.Denotes file expr

section Matches

variable (sound : Sound table calls)

include sound

theorem parserOf_consumes
    (among : ∀ level ∈ levels, level ∈ table) :
    Consumes file (DenotesIn file) calls (parserOf levels) := by
  intro reader location node next inFile ran
  obtain ⟨front, passes, reads⟩ := reads_of_parserOf sound among ran
  have longer := passes.length_rest
  have nonempty := List.length_pos_iff.mpr reads.tokens_ne_nil
  refine ⟨reads.denotes fun token there => inFile.tokens token ?_, by omega⟩
  simp [Reader.tokens, passes.rest_eq, there]

theorem round_consumes
    (among : ∀ level ∈ levels, level ∈ table) :
    Consumes file (DenotesIn file) calls (round symbol levels) := by
  intro reader location node next inFile ran
  obtain ⟨piece, passes, separator, tokens, rfl, _, reads⟩ :=
    round_reads (reads_of_parserOf sound among) ran
  have longer := passes.length_rest
  rw [List.length_cons] at longer
  refine ⟨reads.denotes fun token there => inFile.tokens token ?_, by omega⟩
  simp [Reader.tokens, passes.rest_eq, there]

/-- All operands that a level collects denote expressions. -/
theorem repeats_denote
    {nodes : List Node}
    {stop : Reader}
    (among : ∀ level ∈ levels, level ∈ table)
    (inFile : reader.InFile file)
    (repeats : Repeats (runWith calls (round symbol levels)) reader nodes stop) :
    ∃ exprs, List.Forall₂ (Node.Denotes file) nodes exprs := by
  induction repeats with
  | stop _ => exact ⟨[], .nil⟩
  | more matching later ih =>
      obtain ⟨expr, denotes⟩ := (round_consumes sound among _ _ _ _ inFile matching).1
      obtain ⟨_, passes, _⟩ := round_reads (reads_of_parserOf sound among) matching
      obtain ⟨exprs, others⟩ := ih (inFile.of_passes passes)
      exact ⟨expr :: exprs, .cons denotes others⟩

/-- All that a level has collected becomes one node. -/
theorem operands_reduce
    {nodes : List Node}
    {location : Location}
    {next : Reader}
    (operation : Operation)
    (among : ∀ level ∈ levels, level ∈ table)
    (inFile : reader.InFile file)
    (ran : runWith calls ((parserOf levels).rep1Sep (operator symbol)) reader =
      .ok (.success location nodes next)) :
    ∃ node, Level.reduceRight (combine operation) nodes = .ok node := by
  obtain ⟨nodes, ranBoth, rfl⟩ := map_inv ran
  obtain ⟨_, behind, _, ranFirst, loop⟩ := seq_inv ranBoth
  rw [runWith] at loop
  obtain ⟨_, rest, stop, same, repeats⟩ := repeatFrom_inv loop
  obtain ⟨-, rest_eq, -⟩ := Result.success.inj same
  obtain ⟨_, passes, _⟩ := reads_of_parserOf sound among ranFirst
  obtain ⟨firstExpr, firstDenotes⟩ := (parserOf_consumes sound among _ _ _ _ inFile ranFirst).1
  obtain ⟨exprs, restDenotes⟩ := repeats_denote sound among (inFile.of_passes passes) repeats
  obtain ⟨node, reduces, _⟩ := reduceRight_combine_denotes firstDenotes restDenotes
  rw [rest_eq]
  exact ⟨node, reduces⟩

end Matches

theorem integer_faults : FaultsOnly file BlamesRest calls integer := by
  refine FaultsOnly.process (fun _ _ _ ran => by cases ran) ?_
  intro reader location text next fault inFile ran acted
  obtain ⟨token, passes, same, rfl, rfl⟩ := expect_inv (Except.ok.inj ran)
  cases read : Numeral.read token.text with
  | ok value =>
      rw [read] at acted
      cases acted
  | error error =>
      rw [read] at acted
      cases acted
      refine .integer ?_ (beq_iff_eq.mp same) read
      simp [passes.rest_eq]

theorem combine_denotesIn
    {operation : Operation}
    {left right : Node}
    (leftDenotes : DenotesIn file left)
    (rightDenotes : DenotesIn file right) :
    ∃ node, combine operation left right = .ok node ∧ DenotesIn file node := by
  obtain ⟨leftExpr, leftDenotes⟩ := leftDenotes
  obtain ⟨rightExpr, rightDenotes⟩ := rightDenotes
  obtain ⟨node, combined, denotes⟩ := combine_denotes operation leftDenotes rightDenotes
  exact ⟨node, combined, _, denotes⟩

section Faults

variable (sound : Sound table calls)
variable (within : ∀ name reader, reader.InFile file →
  Ensures (calls name reader) (Result.Within file reader))
variable (faults : FaultsOnly file BlamesRest calls (.forward () : ExprParser Node))

include within faults

theorem atom_faults : FaultsOnly file BlamesRest calls atom := by
  have opened : FaultsOnly file BlamesRest calls opened :=
    .keepRight backward_blamesRest within (.reserved _ _) faults
  have parenthesized : FaultsOnly file BlamesRest calls parenthesized :=
    .keepLeft backward_blamesRest within opened (.reserved _ _)
  rw [atom_eq]
  exact integer_faults.orElse (parenthesized.orElse (.fail _))

include sound

/-- Levels of a table end with no fault but these. -/
theorem parserOf_faults
    (among : ∀ level ∈ levels, level ∈ table) :
    FaultsOnly file BlamesRest calls (parserOf levels) := by
  induction levels with
  | nil => exact atom_faults within faults
  | cons level levels ih =>
      have others : ∀ level ∈ levels, level ∈ table :=
        fun other there => among other (List.mem_cons_of_mem level there)
      have first := ih others
      have rounds : FaultsOnly file BlamesRest calls (round level.operator levels) :=
        .keepRight backward_blamesRest within (.reserved _ _) first
      have consumes : Consumes file (DenotesIn file) calls (round level.operator levels) :=
        round_consumes sound others
      change FaultsOnly _ _ _ (levelParser level (parserOf levels))
      unfold levelParser
      cases level.associativity with
      | left =>
          exact .leftRec backward_blamesRest within first (parserOf_consumes sound others) rounds
            consumes combine_denotesIn
      | right =>
          have operands : FaultsOnly file BlamesRest calls
              ((parserOf levels).rep1Sep (operator level.operator)) :=
            .map (.seq backward_blamesRest within first
              (.rep backward_blamesRest within rounds consumes)) _
          refine operands.process ?_
          intro reader location nodes next fault inFile ran acted
          obtain ⟨node, reduces⟩ := operands_reduce sound level.operation others inFile ran
          cases reduces.symm.trans acted

end Faults

theorem call_within
    (table : LevelTable)
    (limit : Nat)
    (name : Unit)
    (reader : Reader)
    (inFile : reader.InFile file) :
    Ensures (call table limit name reader) (Result.Within file reader) :=
  callForward_within (definitions table) limit name inFile

/-- Calls of the grammar end with no fault but these. -/
theorem call_faults
    (table : LevelTable)
    (limit : Nat) :
    FaultsOnly file BlamesRest (call table limit) (.forward () : ExprParser Node) := by
  induction limit with
  | zero =>
      intro reader fault inFile ran
      cases ran
      exact .nesting
  | succ limit ih =>
      intro reader fault inFile ran
      exact parserOf_faults (sound_call table limit) (call_within table limit) ih
        (fun _ there => there) _ _ inFile ran

/-- The messages of the diagnostics of a parse. -/
def syntaxMessages : List String :=
  [Level.bottomMessage, garbageMessage, "expression is nested too deeply"]

/--
A parse of tokens of one file gives back what it read, reports one of its diagnostics in the
file, or ends with the error of an integer that is no numeral.
-/
theorem parse_ends
    {tokens : List Token}
    (table : LevelTable)
    (inFile : ∀ token ∈ tokens, token.location.fileName = file) :
    (∃ node, parse table file tokens = .ok node ∧ Reads table tokens node) ∨
    (∃ location message,
      parse table file tokens = .error (syntaxProblem location message) ∧
      location.fileName = file ∧ message ∈ syntaxMessages) ∨
    ∃ token error,
      token ∈ tokens ∧ token.tag = Tag.integer ∧ Numeral.read token.text = .error error ∧
      parse table file tokens = .error (.breakdown (.numeral error)) := by
  have readerIn : (Reader.ofTokens file tokens).InFile file := by
    refine ⟨?_, fun _ => rfl⟩
    rw [Reader.tokens_ofTokens]
    exact inFile
  have parsed : parse table file tokens = _ := parseWithin_eq nestingLimit table file tokens
  cases ran : runWith (call table nestingLimit) (.phrase (parserOf table))
      (.ofTokens file tokens) with
  | error fault =>
      rw [ran] at parsed
      have faults : FaultsOnly file BlamesRest (call table nestingLimit) (parserOf table) :=
        parserOf_faults (sound_call table _) (call_within table _) (call_faults table _)
          fun _ there => there
      cases faults.phrase _ _ readerIn ran with
      | nesting =>
          refine .inr (.inl ⟨_, _, parsed, readerIn.location, ?_⟩)
          simp [syntaxMessages, Fault.message]
      | integer there tagged unreadable =>
          exact .inr (.inr ⟨_, _, there, tagged, unreadable, parsed⟩)
  | ok result =>
      rw [ran] at parsed
      cases result with
      | success location node next => exact .inl ⟨node, parsed, reads_of_parseWithin parsed⟩
      | failure location message =>
          have located : location.fileName = file :=
            runWith_within (call_within table nestingLimit) _ readerIn _ ran
          refine .inr (.inl ⟨location, message, parsed, located, ?_⟩)
          rcases failure_of_phrase ran with rfl | rfl <;> simp [syntaxMessages]

section Unreadable

variable {token : Token}
variable {rest tokens : List Token}
variable {error : Numeral.Error}
variable (tagged : token.tag = Tag.integer)
variable (unreadable : Numeral.read token.text = .error error)

include tagged unreadable

/-- Every level begins with the first token, so an integer that is no numeral ends it. -/
theorem parserOf_of_unreadable
    (remaining : reader.rest = token :: rest)
    (calls : Unit → Reader → Action (Result Node))
    (levels : LevelTable) :
    runWith calls (parserOf levels) reader = .error (.action error) := by
  induction levels with
  | nil =>
      obtain ⟨next, passes, expects⟩ :=
        @expect_of_match reader (fun found => found.tag == Tag.integer) token rest
          Tag.integer Token.tag remaining (beq_iff_eq.mpr tagged)
      have found : runWith calls (.tag Tag.integer) reader =
          pure (.success token.location token.text next) := by
        rw [runWith]
        exact congrArg pure expects
      have fails : runWith calls integer reader = .error (.action error) := by
        rw [integer, runWith, found, onSuccess_success, unreadable]
        rfl
      change runWith calls atom reader = _
      rw [atom, runWith, fails]
      rfl
  | cons level levels ih =>
      change runWith calls (levelParser level (parserOf levels)) reader = _
      unfold levelParser
      cases level.associativity <;> simp only [Parser.rep1Sep, Parser.map, runWith, ih] <;> rfl

/-- A text that begins with an integer that is no numeral is not parsed. -/
theorem parse_of_unreadable
    (table : LevelTable)
    (file : String)
    (tokens : List Token) :
    parse table file (token :: tokens) = .error (.breakdown (.numeral error)) := by
  have fails := @parserOf_of_unreadable (.ofTokens file (token :: tokens)) token tokens error
    tagged unreadable rfl (call table nestingLimit) table
  rw [parse, parseWithin_eq, runWith, fails]
  rfl

end Unreadable

end Arithmetic
end Precedence
