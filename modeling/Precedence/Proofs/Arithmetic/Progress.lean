import Precedence.Proofs.Arithmetic.NestingLimit
import Precedence.Proofs.Parser.Progress

/-!
# Progress of the grammar

The grammar of a table refers to itself and has a loop for each level, but it always comes to
an end. A match reads at least one token, a round of a loop an operator as well, and a group
its parenthesis before it enters the grammar again (`grammar_progresses`). This holds of every
table, whatever its operators are, and of any tokens.
-/

namespace Precedence
namespace Arithmetic

open Precedence.Parser LevelTable

variable {table levels : LevelTable}
variable {calls : Unit → Reader → Action (Result Node)}
variable {reader place : Reader}
variable {fault : Fault Numeral.Error}

/-- The fault is about tokens: they are in different files, or an integer is no numeral. -/
inductive AboutTokens : Fault Numeral.Error → Prop
  | files : AboutTokens .differentFiles
  | integer (error : Numeral.Error) : AboutTokens (.action error)

section Steps

variable (sound : Sound table calls)

include sound

/-- A match of some levels passes over a token. -/
theorem parserOf_advances
    (among : ∀ level ∈ levels, level ∈ table) :
    Advances calls 1 (parserOf levels) := by
  intro reader location node next ran
  obtain ⟨front, passes, reads⟩ := reads_of_parserOf sound among ran
  exact ⟨front, passes, List.length_pos_iff.mpr reads.tokens_ne_nil⟩

/-- A round passes over an operator and over the tokens of an operand. -/
theorem round_advances
    (symbol : String)
    (among : ∀ level ∈ levels, level ∈ table) :
    Advances calls 2 (round symbol levels) := by
  intro reader location node next ran
  obtain ⟨piece, passes, separator, tokens, rfl, _, reads⟩ :=
    round_reads (reads_of_parserOf sound among) ran
  exact ⟨_, passes, Nat.succ_le_succ (List.length_pos_iff.mpr reads.tokens_ne_nil)⟩

/-- All loops of some levels repeat rounds. -/
theorem everyStep_parserOf
    (among : ∀ level ∈ levels, level ∈ table) :
    (parserOf levels).EveryStep (Advances calls 2) := by
  induction levels with
  | nil => simp [parserOf, atom, integer, keepRight, keepLeft, Parser.map, Level.bottom, EveryStep]
  | cons level levels ih =>
      have others : ∀ level ∈ levels, level ∈ table :=
        fun other there => among other (List.mem_cons_of_mem level there)
      have first := ih others
      have rounds : Advances calls 2 (round level.operator levels) :=
        round_advances sound level.operator others
      change (levelParser level (parserOf levels)).EveryStep _
      unfold levelParser
      cases level.associativity with
      | left => exact ⟨rounds, first, trivial, first⟩
      | right => exact ⟨first, rounds, trivial, first⟩

end Steps

theorem aboutTokens_of_acts_integer
    (acts : Acts calls fault integer) :
    AboutTokens fault := by
  obtain none | ⟨_, _, text, _, _, acted⟩ := acts
  · cases none
  · dsimp only at acted
    split at acted
    · cases acted
    · cases acted
      exact .integer _

/-- The actions of some levels raise no other fault. -/
theorem aboutTokens_of_acts
    (acts : Acts calls fault (parserOf levels)) :
    AboutTokens fault := by
  induction levels with
  | nil =>
      obtain own | others := acts
      · exact aboutTokens_of_acts_integer own
      · simp [keepRight, keepLeft, Parser.map, Level.bottom, Acts, pure, Except.pure] at others
  | cons level levels ih =>
      change Acts calls fault (levelParser level (parserOf levels)) at acts
      unfold levelParser at acts
      cases side : level.associativity with
      | left =>
          rw [side] at acts
          rcases acts with own | own | ⟨left, right, _, raised⟩
          · exact ih own
          · refine ih ?_
            simpa [keepRight, Parser.map, operator, Acts, pure, Except.pure] using own
          · cases combine_error_inv raised
            exact .files
      | right =>
          rw [side] at acts
          rcases acts with own | ⟨_, _, nodes, _, ran, raised⟩
          · refine ih ?_
            simpa [rep1Sep, keepRight, Parser.map, operator, Acts, pure, Except.pure] using own
          · obtain ⟨values, _, rfl⟩ := map_inv ran
            cases reduceRight_error_inv raised
            exact .files

/-- A call ends with a fault about tokens, if it has no result. -/
theorem aboutTokens_of_ampleCall
    (ran : ampleCall table () reader = .error fault) :
    AboutTokens fault := by
  induction remaining : reader.rest.length using Nat.strongRecOn generalizing reader with
  | ind count ih =>
      rw [unlimited_ampleCall table () reader] at ran
      have sound : Sound table (ampleCall table) := sound_ampleCall table
      rcases runWith_error_of_advances (everyStep_parserOf sound fun _ there => there) ran with
        rfl | acts | ⟨_, place, made, fails⟩
      · exact .files
      · exact aboutTokens_of_acts acts
      -- A fault of a call is one at a later place.
      · have fewer := length_lt_of_calls sound made
        exact ih place.rest.length (by omega) fails rfl

/-- The group that a call is made in begins at the parenthesis in front of it. -/
theorem Enters.exists_group
    (enters : Enters reader place) :
    ∃ (group : Reader) (opening : Token),
      group.Passes [opening] place ∧ opening.opens = true ∧
      reader.pos ≤ group.pos ∧ group.pos < place.pos := by
  obtain ⟨front, opening, passes, opens, _⟩ := enters
  obtain ⟨group, before, into⟩ := passes.split
  have began := before.pos_eq
  have entered := into.pos_eq
  rw [List.length_singleton] at entered
  exact ⟨group, opening, into, opens, by omega, by omega⟩

/--
The grammar of a table comes to an end at every reader, as no call and no loop goes on without
passing over tokens. What unlimited calls do is determined; a run that may open as many calls
as tokens remain does the same. It has a result, or it ends with a fault about the tokens. A
match consumes a token, a round of any of its loops two; and the grammar is entered again
behind a parenthesis, which opens a group no earlier than where the run began.
-/
theorem grammar_progresses
    (table : LevelTable) :
    ∃ composed calls,
      grammar table = .ok composed ∧
      composed.definitions () = some composed.start ∧
      Unlimited composed.definitions calls ∧
      (∀ calls', Unlimited composed.definitions calls' → calls' = calls) ∧
      Advances calls 1 composed.start ∧
      composed.start.EveryStep (Advances calls 2) ∧
      ∀ reader,
        (∀ limit, reader.rest.length ≤ limit →
          composed.run limit reader = runWith calls composed.start reader) ∧
        ((∃ result, runWith calls composed.start reader = .ok result) ∨
          ∃ fault, runWith calls composed.start reader = .error fault ∧ AboutTokens fault) ∧
        ∀ place, Calls calls () place composed.start reader →
          ∃ (group : Reader) (opening : Token),
            group.Passes [opening] place ∧ opening.opens = true ∧
            reader.pos ≤ group.pos ∧ group.pos < place.pos := by
  have sound : Sound table (ampleCall table) := sound_ampleCall table
  refine ⟨⟨parserOf table, definitions table⟩, ampleCall table, grammar_eq table, rfl,
    unlimited_ampleCall table, fun _ => eq_ampleCall_of_unlimited,
    parserOf_advances sound fun _ there => there, everyStep_parserOf sound fun _ there => there,
    fun reader => ⟨fun limit enough => ?_, ?_, fun place made => ?_⟩⟩
  · refine runWith_congr fun _ place made => ?_
    have fewer := length_lt_of_calls sound made
    exact (ampleCall_eq_call (by omega)).symm
  · have called := unlimited_ampleCall table () reader
    cases ran : runWith (ampleCall table) (parserOf table) reader with
    | ok result => exact .inl ⟨result, rfl⟩
    | error fault => exact .inr ⟨fault, rfl, aboutTokens_of_ampleCall (called.trans ran)⟩
  · exact (calls_of_parserOf sound (fun _ there => there) made).exists_group

end Arithmetic
end Precedence
