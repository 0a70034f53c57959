import Precedence.Proofs.Arithmetic.Acceptance
import Precedence.Proofs.Arithmetic.Reading

/-!
# The limit on nesting

A call of the grammar is made behind a parenthesis that was opened since the call before it,
so each call has fewer tokens before it than the one that made it. As many calls as there are
tokens are therefore never open at once, and what a parse does without any limit is defined:
`ampleCall` is the only solution of the equation that unlimited calls satisfy.

A limit on the open calls ends exactly those parses that come to have more parentheses open
at once, with a diagnostic at the first token, and leaves any other parse as it is without a
limit (`parse_within_limit`). This holds of every table, also one that repeats operators, and
of tokens that are in several files.
-/

namespace Precedence
namespace Arithmetic

open Precedence.Parser LevelTable

variable {table levels : LevelTable}
variable {calls : Unit → Reader → Action (Result Node)}
variable {reader place : Reader}
variable {limit limit' depth : Nat}

section Unlimited

theorem sound_call
    (table : LevelTable)
    (limit : Nat) :
    Sound table (call table limit) := by
  induction limit with
  | zero =>
      intro reader location node next ran
      cases ran
  | succ limit ih =>
      intro reader location node next ran
      rw [call_succ] at ran
      exact reads_of_parserOf ih (fun _ there => there) ran

theorem Enters.length_lt
    (enters : Enters reader place) :
    place.rest.length < reader.rest.length := by
  obtain ⟨front, opening, passes, _, _⟩ := enters
  have longer := passes.length_rest
  rw [List.length_append, List.length_singleton] at longer
  omega

/-- A call has fewer tokens before it than the run that makes it. -/
theorem length_lt_of_calls
    (sound : Sound table calls)
    (made : Calls calls () place (parserOf table) reader) :
    place.rest.length < reader.rest.length :=
  (calls_of_parserOf sound (fun _ there => there) made).length_lt

/-- Any two limits that the remaining tokens cannot reach are alike. -/
theorem call_eq_call
    (enough : reader.rest.length < limit)
    (enough' : reader.rest.length < limit') :
    call table limit () reader = call table limit' () reader := by
  induction remaining : reader.rest.length using Nat.strongRecOn
    generalizing reader limit limit' with
  | ind count ih =>
      obtain ⟨inner, rfl⟩ := Nat.exists_eq_add_one_of_ne_zero (Nat.ne_zero_of_lt enough)
      obtain ⟨inner', rfl⟩ := Nat.exists_eq_add_one_of_ne_zero (Nat.ne_zero_of_lt enough')
      rw [call_succ, call_succ]
      -- The limits differ for the calls that this run makes, where fewer tokens remain.
      refine runWith_congr fun _ place made => ?_
      have fewer := length_lt_of_calls (sound_call table inner') made
      exact ih place.rest.length (by omega) (by omega) (by omega) rfl

/-- A call with as many more to open as the remaining tokens could ask for. -/
def ampleCall (table : LevelTable) : Unit → Reader → Action (Result Node) :=
  fun _ reader => call table (ampleLimit 1 reader) () reader

theorem ampleCall_eq_call
    (enough : reader.rest.length < limit) :
    ampleCall table () reader = call table limit () reader :=
  call_eq_call (by simp [ampleLimit]) enough

/-- With ample calls a call runs the parser of the table with ample calls again. -/
theorem unlimited_ampleCall
    (table : LevelTable) :
    Unlimited (definitions table) (ampleCall table) := by
  intro _ reader
  rw [ampleCall_eq_call (Nat.lt_succ_self _), call_succ]
  refine (runWith_congr fun _ place made => ?_).symm
  exact ampleCall_eq_call (length_lt_of_calls (sound_call table _) made)

theorem sound_ampleCall
    (table : LevelTable) :
    Sound table (ampleCall table) :=
  fun ran => sound_call table _ ran

end Unlimited

section Calm

variable {fault : Fault Numeral.Error}

theorem combine_error_inv
    {operation : Operation}
    {left right : Node}
    (ran : combine operation left right = .error fault) :
    fault = .differentFiles := by
  rcases bind_error_inv ran with fails | ⟨_, _, fails⟩
  · exact eq_differentFiles_of_cover fails
  · cases fails

/-- Operands of which there is one at least are reduced, unless they are in different files. -/
theorem reduceRight_error_inv
    {operation : Operation}
    {first : Node}
    {nodes : List Node}
    (ran : Level.reduceRight (combine operation) (first :: nodes) = .error fault) :
    fault = .differentFiles := by
  induction nodes generalizing first with
  | nil => cases ran
  | cons second nodes ih =>
      rcases bind_error_inv ran with fails | ⟨_, _, fails⟩
      · exact ih fails
      · exact combine_error_inv fails

theorem integer_not_mayRaise : ¬ MayRaise .nestedTooDeeply integer := by
  rintro (none | ⟨text, location, acted⟩)
  · cases none
  · dsimp only at acted
    split at acted <;> cases acted

/-- The parsers of a table raise no fault of their own about nesting. -/
theorem parserOf_not_mayRaise
    (levels : LevelTable) :
    ¬ MayRaise .nestedTooDeeply (parserOf levels) := by
  induction levels with
  | nil =>
      intro own
      simp [parserOf, atom, keepRight, keepLeft, Parser.map, Level.bottom, MayRaise,
        integer_not_mayRaise, pure, Except.pure] at own
  | cons level levels ih =>
      change ¬ MayRaise _ (levelParser level (parserOf levels))
      unfold levelParser
      cases level.associativity with
      | left =>
          rintro (files | endless | own | own | ⟨left, right, _, raised⟩)
          · cases files
          · cases endless
          · exact ih own
          · simp [keepRight, Parser.map, operator, MayRaise, ih, pure, Except.pure] at own
          · cases combine_error_inv raised
      | right =>
          rintro (own | ⟨operands, _, raised⟩)
          · simp [rep1Sep, keepRight, Parser.map, operator, MayRaise, ih, pure, Except.pure] at own
          · cases operands with
            | nil => cases raised
            | cons first nodes => cases reduceRight_error_inv raised

/-- Without a limit no call is ended for its depth. -/
theorem ampleCall_calm
    (name : Unit)
    (reader : Reader) :
    ampleCall table name reader ≠ .error .nestedTooDeeply := by
  induction remaining : reader.rest.length using Nat.strongRecOn generalizing reader with
  | ind count ih =>
      intro fails
      rw [unlimited_ampleCall table name reader] at fails
      rcases runWith_error_inv fails with own | ⟨_, place, made, deeper⟩
      · exact parserOf_not_mayRaise table own
      · have fewer := length_lt_of_calls (sound_ampleCall table) made
        exact ih place.rest.length (by omega) place rfl deeper

/-- Unlimited calls are determined by what they satisfy. -/
theorem eq_ampleCall_of_unlimited
    (unlimited : Unlimited (definitions table) calls) :
    calls = ampleCall table := by
  funext name reader
  have agrees := callForward_agrees unlimited (ampleLimit 1 reader) name reader
  exact (agrees.resolve_left (ampleCall_calm name reader)).symm

end Calm

section Depth

/-- With so many calls open at once there are so many parentheses open. -/
theorem passes_of_opens
    (sound : Sound table calls)
    (opens : Opens (definitions table) calls depth (parserOf table) reader) :
    ∃ front place,
      reader.Passes front place ∧
      front.countP Token.opens = front.countP Token.closes + depth := by
  induction depth generalizing reader with
  | zero => exact ⟨[], reader, .refl reader, rfl⟩
  | succ depth ih =>
      obtain ⟨_, place, body, made, defined, deeper⟩ := opens
      cases defined
      obtain ⟨outer, opening, passes, isOpening, balanced⟩ :=
        calls_of_parserOf sound (fun _ there => there) made
      obtain ⟨inner, stop, passesOn, deep⟩ := ih deeper
      refine ⟨outer ++ [opening] ++ inner, stop, passes.trans passesOn, ?_⟩
      simp only [List.countP_append, List.countP_singleton, isOpening,
        Token.not_closes_of_opens isOpening, if_true, Bool.false_eq_true, if_false]
      omega

theorem not_opens_of_nestsWithin
    {fileName : String}
    {tokens : List Token}
    (sound : Sound table calls)
    (nests : NestsWithin Token.opens Token.closes limit tokens) :
    ¬ Opens (definitions table) calls (limit + 1) (.phrase (parserOf table))
      (Reader.ofTokens fileName tokens) := by
  intro opens
  have deeper : Opens (definitions table) calls (limit + 1) (parserOf table)
      (Reader.ofTokens fileName tokens) := opens
  obtain ⟨front, place, passes, deep⟩ := passes_of_opens sound deeper
  have within := nests front ⟨place.rest, passes.rest_eq.symm⟩
  omega

end Depth

section Parse

variable {location : Location}
variable {message : String}

/-- What a parse that begins at the reader makes of a run. -/
def treeOf (reader : Reader) (outcome : Action (Result Node)) : Except Problem Node :=
  match outcome with
  | .ok (.success _ tree _) => .ok tree
  | .ok (.failure location message) => .error (syntaxProblem location message)
  | .error fault => .error (problemOf reader fault)

theorem parseWithin_eq
    (limit : Nat)
    (table : LevelTable)
    (fileName : String)
    (tokens : List Token) :
    parseWithin limit table fileName tokens =
      treeOf (.ofTokens fileName tokens)
        (runWith (call table limit) (.phrase (parserOf table)) (.ofTokens fileName tokens)) := by
  rw [← run_eq]
  rfl

/-- The only messages of a failure are those of the bottom parser and of the phrase. -/
theorem failure_of_phrase
    (ran : runWith calls (.phrase (parserOf levels)) reader = .ok (.failure location message)) :
    message = Level.bottomMessage ∨ message = garbageMessage := by
  rw [runWith] at ran
  rcases onSuccess_inv ran with ⟨_, _, next, _, ran⟩ | ⟨_, _, ran, same⟩
  · by_cases isEmpty : next.isEmpty
    · simp [isEmpty, pure, Except.pure] at ran
    · simp [isEmpty, pure, Except.pure] at ran
      exact .inr ran.2.symm
  · cases same
    exact .inl (failure_of_parserOf ran).2

/-- The diagnostic about nesting is given for a run that the limit ended, and for no other. -/
theorem treeOf_tooDeep_iff
    {outcome : Action (Result Node)}
    (messages : ∀ location message, outcome = .ok (.failure location message) →
      message = Level.bottomMessage ∨ message = garbageMessage) :
    treeOf reader outcome =
        .error (syntaxProblem reader.location "expression is nested too deeply") ↔
      outcome = .error .nestedTooDeeply := by
  constructor
  · intro same
    cases outcome with
    | error fault =>
        cases fault <;> first | rfl | cases same
    | ok result =>
        cases result with
        | success _ tree _ => cases same
        | failure location message =>
            have mentioned := (syntaxProblem_inj same).2
            subst mentioned
            rcases messages location _ rfl with bottom | garbage
            · exact absurd bottom (by decide)
            · exact absurd garbage (by decide)
  · rintro rfl
    rfl

/--
A parse is the parse without a limit, or the limit ended it. The limit ends a parse exactly
if more calls than it allows come to be open at once, which takes as many open parentheses.
-/
theorem parse_within_limit
    (table : LevelTable) :
    ∃ composed calls,
      grammar table = .ok composed ∧ Unlimited composed.definitions calls ∧
      (∀ calls', Unlimited composed.definitions calls' → calls' = calls) ∧
      ∀ fileName tokens,
        let reader := Reader.ofTokens fileName tokens
        let tooDeep := Opens composed.definitions calls (nestingLimit + 1)
          (.phrase composed.start) reader
        (¬ tooDeep →
          parse table fileName tokens =
            treeOf reader (runWith calls (.phrase composed.start) reader)) ∧
        (parse table fileName tokens =
            .error (syntaxProblem (firstLocation fileName tokens)
              "expression is nested too deeply") ↔
          tooDeep) ∧
        (tooDeep → ¬ NestsWithin Token.opens Token.closes nestingLimit tokens) := by
  have unlimited := unlimited_ampleCall table
  refine ⟨⟨parserOf table, definitions table⟩, ampleCall table, grammar_eq table, unlimited,
    fun _ => eq_ampleCall_of_unlimited, ?_⟩
  intro fileName tokens reader tooDeep
  have ends : runWith (call table nestingLimit) (.phrase (parserOf table)) reader =
      .error .nestedTooDeeply ↔ tooDeep := by
    refine runWith_nestedTooDeeply_iff (p := .phrase (parserOf table)) unlimited ampleCall_calm
      (parserOf_not_mayRaise table) ?_ nestingLimit reader
    intro _ body defined
    cases defined
    exact parserOf_not_mayRaise table
  unfold parse
  rw [parseWithin_eq, ← location_ofTokens]
  refine ⟨fun within => ?_, ?_, fun deep nests => ?_⟩
  · have same : runWith (call table nestingLimit) (.phrase (parserOf table)) reader =
        runWith (ampleCall table) (.phrase (parserOf table)) reader :=
      (runWith_error_or_eq (callForward_agrees unlimited nestingLimit)).resolve_left
        fun stopped => within (ends.mp stopped)
    exact congrArg (treeOf reader) same
  · exact (treeOf_tooDeep_iff fun _ _ => failure_of_phrase).trans ends
  · exact not_opens_of_nestsWithin (sound_ampleCall table) nests deep

end Parse

end Arithmetic
end Precedence
