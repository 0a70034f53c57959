import Precedence.Parser.Run
import Precedence.Proofs.Parser.Passage

/-!
# Rules of the combinators

What a compound parser does at a reader, given what its parts do. The parts are run for
their results only: the rules speak of runs that equal `pure result`, in any lawful monad.

Where two locations are covered they have to be in one file, and so is the location that
covers them.
-/

namespace Precedence
namespace Location

/-- Locations in one file are covered by a location in that file. -/
theorem exists_combine?
    {a b : Location}
    {file : String}
    (left : a.fileName = file)
    (right : b.fileName = file) :
    ∃ location, a.combine? b = some location ∧ location.fileName = file := by
  unfold combine?
  rw [if_pos (left.trans right.symm)]
  exact ⟨_, rfl, left⟩

end Location

namespace Parser

variable {ν τ α β : Type} {ε : Type}
variable {m : Type → Type} [Monad m] [MonadExcept (Fault ε) m]
variable {call : ν → Reader → m (Result τ)}
variable {reader middle next : Reader}
variable {here there : Location}
variable {file message : String}

/-- Covering locations of one file is no fault. -/
theorem exists_cover
    {a b : Location}
    (left : a.fileName = file)
    (right : b.fileName = file) :
    ∃ location, location.fileName = file ∧ cover a b = (pure location : m Location) := by
  obtain ⟨location, covered, inFile⟩ := Location.exists_combine? left right
  refine ⟨location, inFile, ?_⟩
  unfold cover
  rw [covered]

/-- A token that does not match, or no token at all, is a failure. -/
theorem expect_of_mismatch
    {matching : Token → Bool}
    (expected : String)
    (found : Token → String)
    (mismatch : ∀ token rest, reader.rest = token :: rest → matching token = false) :
    ∃ location message,
      expect matching expected found reader = .failure location message := by
  unfold expect Reader.next?
  split
  · exact ⟨_, _, rfl⟩
  · rename_i token after moved
    split at moved
    · cases moved
    · rename_i remaining
      cases moved
      rw [mismatch _ _ remaining]
      exact ⟨_, _, rfl⟩

/-- A token that matches is passed over. -/
theorem expect_of_match
    {matching : Token → Bool}
    {token : Token}
    {rest : List Token}
    (expected : String)
    (found : Token → String)
    (remaining : reader.rest = token :: rest)
    (same : matching token = true) :
    ∃ next,
      reader.Passes [token] next ∧
      expect matching expected found reader =
        .success token.location token.text next := by
  have moved :
      reader.next? = some
        (token, { reader with consumed := token :: reader.consumed, rest := rest }) := by
    unfold Reader.next?
    rw [remaining]
  refine ⟨_, Reader.Passes.of_next? moved, ?_⟩
  simp only [expect, moved, same, if_true]

section Lawful

variable [LawfulMonad m]

@[simp] theorem onSuccess_success
    (value : α)
    (go : Location → α → Reader → m (Result β)) :
    onSuccess (pure (.success here value next)) go = go here value next := by
  simp only [onSuccess, pure_bind]

@[simp] theorem onSuccess_failure
    (go : Location → α → Reader → m (Result β)) :
    onSuccess (pure (.failure here message)) go = pure (.failure here message) := by
  simp only [onSuccess, pure_bind]

section Map

variable {p : Parser ν τ m α}

theorem runWith_map_success
    {value : α}
    (f : α → β)
    (run : runWith call p reader = pure (.success here value next)) :
    runWith call (p.map f) reader = pure (.success here (f value) next) := by
  simp only [Parser.map, runWith, run, onSuccess_success, pure_bind]

theorem runWith_map_failure
    (f : α → β)
    (run : runWith call p reader = pure (.failure here message)) :
    runWith call (p.map f) reader = pure (.failure here message) := by
  simp only [Parser.map, runWith, run, onSuccess_failure]

end Map

section Sequence

variable {p : Parser ν τ m α} {q : Parser ν τ m β}
variable {left : α} {right : β}

theorem runWith_seq_success
    (first : runWith call p reader = pure (.success here left middle))
    (second : runWith call q middle = pure (.success there right next))
    (hereIn : here.fileName = file)
    (thereIn : there.fileName = file) :
    ∃ location,
      location.fileName = file ∧
      runWith call (p.seq q) reader =
        pure (.success location (left, right) next) := by
  obtain ⟨location, inFile, covered⟩ :=
    exists_cover (m := m) hereIn thereIn
  refine ⟨location, inFile, ?_⟩
  simp only [runWith, first, second, onSuccess_success, covered, pure_bind]

theorem runWith_seq_failure
    (first : runWith call p reader = pure (.failure here message)) :
    runWith call (p.seq q) reader = pure (.failure here message) := by
  simp only [runWith, first, onSuccess_failure]

theorem runWith_seq_failure_behind
    (first : runWith call p reader = pure (.success here left middle))
    (second : runWith call q middle = pure (.failure there message)) :
    runWith call (p.seq q) reader = pure (.failure there message) := by
  simp only [runWith, first, second, onSuccess_success, onSuccess_failure]

theorem runWith_keepRight_success
    (first : runWith call p reader = pure (.success here left middle))
    (second : runWith call q middle = pure (.success there right next))
    (hereIn : here.fileName = file)
    (thereIn : there.fileName = file) :
    ∃ location,
      location.fileName = file ∧
      runWith call (p.keepRight q) reader = pure (.success location right next) := by
  obtain ⟨location, inFile, run⟩ :=
    runWith_seq_success first second hereIn thereIn
  exact ⟨location, inFile, runWith_map_success Prod.snd run⟩

theorem runWith_keepRight_failure
    (first : runWith call p reader = pure (.failure here message)) :
    runWith call (p.keepRight q) reader = pure (.failure here message) :=
  runWith_map_failure Prod.snd (runWith_seq_failure first)

theorem runWith_keepRight_failure_behind
    (first : runWith call p reader = pure (.success here left middle))
    (second : runWith call q middle = pure (.failure there message)) :
    runWith call (p.keepRight q) reader = pure (.failure there message) :=
  runWith_map_failure Prod.snd (runWith_seq_failure_behind first second)

theorem runWith_keepLeft_success
    (first : runWith call p reader = pure (.success here left middle))
    (second : runWith call q middle = pure (.success there right next))
    (hereIn : here.fileName = file)
    (thereIn : there.fileName = file) :
    ∃ location,
      location.fileName = file ∧
      runWith call (p.keepLeft q) reader = pure (.success location left next) := by
  obtain ⟨location, inFile, run⟩ :=
    runWith_seq_success first second hereIn thereIn
  exact ⟨location, inFile, runWith_map_success Prod.fst run⟩

theorem runWith_keepLeft_failure
    (first : runWith call p reader = pure (.failure here message)) :
    runWith call (p.keepLeft q) reader = pure (.failure here message) :=
  runWith_map_failure Prod.fst (runWith_seq_failure first)

theorem runWith_keepLeft_failure_behind
    (first : runWith call p reader = pure (.success here left middle))
    (second : runWith call q middle = pure (.failure there message)) :
    runWith call (p.keepLeft q) reader = pure (.failure there message) :=
  runWith_map_failure Prod.fst (runWith_seq_failure_behind first second)

end Sequence

section Alternative

variable {p q : Parser ν τ m α}

theorem runWith_orElse_success
    {value : α}
    (run : runWith call p reader = pure (.success here value next)) :
    runWith call (p.orElse q) reader = pure (.success here value next) := by
  simp only [runWith, run, pure_bind]

theorem runWith_orElse_failure
    (run : runWith call p reader = pure (.failure here message)) :
    runWith call (p.orElse q) reader = runWith call q reader := by
  simp only [runWith, run, pure_bind]

end Alternative

end Lawful
end Parser
end Precedence
