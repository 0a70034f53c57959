import Mathlib
import Precedence.Arithmetic
import Precedence.Proofs.Level.Wiring
import Precedence.Proofs.Parser.Confinement

/-!
# The diagnosis of a grammar

A level fails only where the tighter levels fail, and as they do: once its first operand has
matched it has a result, and an alternative is judged by what is tried last. So a grammar that
is composed of levels fails only where its bottom parser fails, with the failure of the bottom
parser there, however far a level or a group has come before it gave up
(`composeWith_failure`).

Actions may have effects; what is said of a failure is said of every one that a run can return.
-/

namespace Precedence

open MonadAttach

/-- The parser has matched. -/
def Result.Matched {α : Type} : Result α → Prop
  | .success _ _ _ => True
  | .failure _ _ => False

variable {ν τ α β : Type} {ε : Type}
variable {m : Type → Type} [Monad m] [LawfulMonad m] [MonadAttach m] [LawfulMonadAttach m]
variable [MonadExcept (Fault ε) m]
variable {location : Location} {message : String}

namespace Parser

section Loops

variable [Abrupt ε m]
variable (step : Reader → m (Result β))

/-- A repetition has matched, if only nothing. -/
theorem repeatFrom_matched
    (rounds : List Token)
    (location : Location)
    (reader : Reader) :
    Ensures (repeatFrom step rounds location reader) Result.Matched := by
  induction rounds generalizing location reader with
  | nil =>
      rw [repeatFrom]
      refine (Ensures.trivial _).bind fun result _ => ?_
      cases result with
      | failure _ _ => exact .of_pure True.intro
      | success here value next => exact (Ensures.trivial _).bind fun _ _ => .of_throw _ _
  | cons round rounds ih =>
      rw [repeatFrom]
      refine (Ensures.trivial _).bind fun result _ => ?_
      cases result with
      | failure _ _ => exact .of_pure True.intro
      | success here value next =>
          refine (Ensures.trivial _).bind fun wider _ => ?_
          exact onSuccess_ensures (ih wider next) (fun _ _ => False.elim) fun _ _ _ _ =>
            .of_pure True.intro

theorem foldFrom_matched
    (combine : α → β → Location → m α)
    (rounds : List Token)
    (location : Location)
    (value : α)
    (reader : Reader) :
    Ensures (foldFrom step combine rounds location value reader) Result.Matched := by
  induction rounds generalizing location value reader with
  | nil =>
      rw [foldFrom]
      refine (Ensures.trivial _).bind fun result _ => ?_
      cases result with
      | failure _ _ => exact .of_pure True.intro
      | success here operand next =>
          exact (Ensures.trivial _).bind fun _ _ =>
            (Ensures.trivial _).bind fun _ _ => .of_throw _ _
  | cons round rounds ih =>
      rw [foldFrom]
      refine (Ensures.trivial _).bind fun result _ => ?_
      cases result with
      | failure _ _ => exact .of_pure True.intro
      | success here operand next =>
          exact (Ensures.trivial _).bind fun wider _ =>
            (Ensures.trivial _).bind fun folded _ => ih wider folded next

end Loops

/-- If what follows a match has a match, too, then only the first part can fail. -/
theorem canReturn_of_onSuccess
    {outcome : m (Result α)}
    {go : Location → α → Reader → m (Result β)}
    (matched : ∀ location value next, Ensures (go location value next) Result.Matched)
    (fails : CanReturn (onSuccess outcome go) (.failure location message)) :
    CanReturn outcome (.failure location message) := by
  obtain ⟨result, ofOutcome, ofGo⟩ := LawfulMonadAttach.canReturn_bind_imp' fails
  cases result with
  | success here value next => exact (matched here value next _ ofGo).elim
  | failure here reason =>
      cases LawfulMonadAttach.eq_of_canReturn_pure ofGo
      exact ofOutcome

/-- Wherever the first parser fails, the second one fails in the same way. -/
def FailsAs (call : ν → Reader → m (Result τ)) (p : Parser ν τ m α) (q : Parser ν τ m β) :
    Prop :=
  ∀ reader location message,
    CanReturn (runWith call p reader) (.failure location message) →
    CanReturn (runWith call q reader) (.failure location message)

variable {call : ν → Reader → m (Result τ)}
variable {p : Parser ν τ m α} {q : Parser ν τ m β}

theorem process_failsAs
    (action : α → Location → m β) :
    FailsAs call (p.process action) p := by
  intro reader location message fails
  rw [runWith] at fails
  refine canReturn_of_onSuccess (fun here value next => ?_) fails
  exact (Ensures.trivial _).bind fun _ _ => .of_pure True.intro

/-- An alternative is judged by what is tried last. -/
theorem orElse_failsAs
    (p q : Parser ν τ m α) :
    FailsAs call (p.orElse q) q := by
  intro reader location message fails
  rw [runWith] at fails
  obtain ⟨result, _, ofSecond⟩ := LawfulMonadAttach.canReturn_bind_imp' fails
  cases result with
  | success here value next => cases LawfulMonadAttach.eq_of_canReturn_pure ofSecond
  | failure here reason => exact ofSecond

variable [Abrupt ε m]

theorem leftRec_failsAs
    (combine : α → β → Location → m α) :
    FailsAs call (p.leftRec q combine) p := by
  intro reader location message fails
  rw [runWith] at fails
  exact canReturn_of_onSuccess (fun here value next => foldFrom_matched _ combine _ here value next)
    fails

theorem seq_rep_failsAs
    (p : Parser ν τ m α)
    (q : Parser ν τ m β) :
    FailsAs call (p.seq q.rep) p := by
  intro reader location message fails
  rw [runWith] at fails
  refine canReturn_of_onSuccess (fun here value middle => ?_) fails
  rw [runWith]
  refine onSuccess_ensures (repeatFrom_matched _ _ _ _) (fun _ _ => False.elim) fun _ _ _ _ => ?_
  exact (Ensures.trivial _).bind fun _ _ => .of_pure True.intro

end Parser

namespace Level

open Precedence.Parser

/-- The failures of the default bottom parser. -/
theorem failure_of_bottom
    {call : ν → Reader → m (Result τ)}
    {reader : Reader}
    (fails : CanReturn (runWith call (bottom : Parser ν τ m τ) reader)
      (.failure location message)) :
    location = reader.location ∧ message = bottomMessage := by
  rw [bottom, runWith] at fails
  cases LawfulMonadAttach.eq_of_canReturn_pure fails
  exact ⟨rfl, rfl⟩

variable [Abrupt ε m]

/-- The creators of operators, alternatives and groups. -/
inductive Usual : Creator ν τ ε m → Prop
  | leftAssociative
      {β : Type}
      (operator : Parser ν τ m β)
      (combine : τ → τ → m τ) :
      Usual (leftAssociative operator combine)
  | rightAssociative
      {β : Type}
      (operator : Parser ν τ m β)
      (combine : τ → τ → m τ) :
      Usual (rightAssociative operator combine)
  | orNext
      (parser : Parser ν τ m τ) :
      Usual (orNext parser)
  | group :
      Usual Arithmetic.group

/-- A level is a parser that fails as the tighter levels fail. -/
theorem Usual.builds_failsAs
    {creator : Creator ν τ ε m}
    (usual : Usual creator)
    (top next : Parser ν τ m τ) :
    ∃ parser,
      creator top (some next) = .ok (some parser) ∧ ∀ call, FailsAs call parser next := by
  cases usual with
  | leftAssociative operator combine => exact ⟨_, rfl, fun call => leftRec_failsAs _⟩
  | rightAssociative operator combine =>
      refine ⟨_, rfl, fun call reader location message fails => ?_⟩
      have operands := process_failsAs _ _ _ _ fails
      exact seq_rep_failsAs _ _ _ _ _ (process_failsAs _ _ _ _ operands)
  | orNext parser => exact ⟨_, rfl, fun call => orElse_failsAs parser next⟩
  | group => exact ⟨_, rfl, fun call => orElse_failsAs _ next⟩

/-- Levels are wired to a parser that fails as the innermost one fails. -/
theorem wires_failsAs
    {creators : List (Creator ν τ ε m)}
    (usual : ∀ creator ∈ creators, Usual creator)
    (top innermost : Parser ν τ m τ) :
    ∃ parser,
      Wires top (some innermost) creators (some parser) ∧
      ∀ call, FailsAs call parser innermost := by
  induction creators with
  | nil => exact ⟨innermost, .nil, fun call reader location message fails => fails⟩
  | cons creator creators ih =>
      obtain ⟨first, others⟩ := List.forall_mem_cons.mp usual
      obtain ⟨next, behind, failsAs⟩ := ih others
      obtain ⟨parser, builds, here⟩ := first.builds_failsAs top next
      refine ⟨parser, .cons behind builds, fun call reader location message fails => ?_⟩
      exact failsAs call _ _ _ (here call _ _ _ fails)

variable [DecidableEq ν]

/-- Levels and what they are built on make a grammar, if `top` is not defined yet. -/
theorem composeWith_failsAs
    {definitions : Definitions ν τ m}
    {top : ν}
    {creators : List (Creator ν τ ε m)}
    (fresh : definitions.isDefined top = false)
    (usual : ∀ creator ∈ creators, Usual creator)
    (innermost : Parser ν τ m τ) :
    ∃ called grammar,
      composeWith definitions top (some innermost) creators = (called, .ok grammar) ∧
      ∀ call, FailsAs call grammar.start innermost := by
  obtain ⟨parser, wires, failsAs⟩ := wires_failsAs usual (.forward top) innermost
  exact ⟨_, _, (Composition.grammar wires).composeWith_eq fresh, failsAs⟩

/--
A grammar that is composed of operators, alternatives and groups, in any order and number, fails
only where its bottom parser fails, and just as the bottom parser fails there. With the default
bottom parser the failure is the message of that parser at the place where the grammar was run.
-/
theorem composeWith_failure
    (definitions : Definitions ν τ m)
    (top : ν)
    (innermost : Parser ν τ m τ)
    (creators : List (Creator ν τ ε m))
    (fresh : definitions.isDefined top = false)
    (usual : ∀ creator ∈ creators, Usual creator) :
    (∃ called grammar,
      composeWith definitions top (some innermost) creators = (called, .ok grammar) ∧
      ∀ limit reader location message,
        CanReturn (grammar.run limit reader) (.failure location message) →
        CanReturn (Parser.run grammar.definitions limit innermost reader)
          (.failure location message)) ∧
    ∃ called grammar,
      composeWith definitions top (some bottom) creators = (called, .ok grammar) ∧
      ∀ limit reader location message,
        CanReturn (grammar.run limit reader) (.failure location message) →
        location = reader.location ∧ message = bottomMessage := by
  constructor
  · obtain ⟨called, grammar, composed, failsAs⟩ := composeWith_failsAs fresh usual innermost
    exact ⟨called, grammar, composed, fun limit reader location message => failsAs _ _ _ _⟩
  · obtain ⟨called, grammar, composed, failsAs⟩ := composeWith_failsAs fresh usual bottom
    exact ⟨called, grammar, composed, fun limit reader location message fails =>
      failure_of_bottom (failsAs _ _ _ _ fails)⟩

/-- A group that lacks its end, in a grammar of sums, is diagnosed at its beginning. -/
theorem composeWith_failure_group :
    let place (column : Int) := Location.ofPositions "sum" ⟨1, column⟩ ⟨1, column + 1⟩
    let reader := Reader.ofTokens "sum"
      [⟨"(", Tag.reserved, place 1⟩, ⟨"1", Tag.integer, place 2⟩, ⟨"+", Tag.operator, place 3⟩]
    let pair (left right : String) : Except (Fault Empty) String := .ok (left ++ right)
    let creators : List (Creator Unit String Empty (Except (Fault Empty))) :=
      [rightAssociative (.reserved Tag.operator "+") pair, orNext (.tag Tag.integer),
        Arithmetic.group]
    ∃ grammar location message,
      composeWithDefault () creators = .ok grammar ∧
      grammar.run 1 reader = .ok (.failure location message) ∧
      location = place 1 ∧ message = bottomMessage := by
  intro place reader pair creators
  have usual : ∀ creator ∈ creators, Usual creator := by
    simp only [creators, List.forall_mem_cons]
    exact ⟨.rightAssociative _ _, .orNext _, .group, by simp⟩
  obtain ⟨-, called, grammar, composed, diagnosed⟩ :=
    composeWith_failure .empty () (.fail "no operand") creators rfl usual
  have fails : ∃ location message, grammar.run 1 reader = .ok (.failure location message) := by
    cases composed
    exact ⟨place 1, bottomMessage, by cbv⟩
  obtain ⟨location, message, fails⟩ := fails
  exact ⟨grammar, location, message, congrArg Prod.snd composed, fails,
    diagnosed 1 reader location message fails⟩

end Level
end Precedence
