import Precedence.Proofs.Parser.Rules

/-!
# A run stays where it is

Whatever a parser is made of, a run of it reports locations in the file of the tokens only,
and a reader behind a match has passed over tokens of the reader before it. Both hold in
every monad in which a fault ends a computation.

`runWith_within` is the induction over the parser; `run_within` closes it over the forward
parsers, by induction on the number of calls that may still be opened.
-/

namespace Precedence

/-- Whatever the computation returns has the property. -/
def Ensures {m : Type → Type} [MonadAttach m] {α : Type} (x : m α) (P : α → Prop) : Prop :=
  ∀ a, MonadAttach.CanReturn x a → P a

/-- A fault ends a computation: nothing is returned from it. -/
class Abrupt (ε : Type) (m : Type → Type) [MonadExcept (Fault ε) m] [MonadAttach m] :
    Prop where
  not_canReturn_throw {α : Type} (fault : Fault ε) (a : α) :
    ¬ MonadAttach.CanReturn (throw fault : m α) a

instance {ε : Type} {n : Type → Type} [Monad n] [LawfulMonad n] [MonadAttach n]
    [LawfulMonadAttach n] : Abrupt ε (ExceptT (Fault ε) n) where
  not_canReturn_throw fault a returned := by
    have same : (Except.error fault : Except (Fault ε) _) = .ok a :=
      LawfulMonadAttach.eq_of_canReturn_pure returned
    cases same

/-- Where a computation only computes, it returns its value. -/
instance exceptMonadAttach {ε : Type} : MonadAttach (Except ε) where
  CanReturn x a := x = .ok a
  attach x :=
    match x with
    | .ok a => .ok ⟨a, rfl⟩
    | .error fault => .error fault

instance exceptLawfulMonadAttach {ε : Type} : LawfulMonadAttach (Except ε) where
  map_attach := by
    intro α x
    cases x <;> rfl
  canReturn_map_imp := by
    intro α P x a returned
    cases x with
    | error fault => cases returned
    | ok value =>
        cases returned
        exact value.property

instance {ε : Type} : Abrupt ε (Except (Fault ε)) where
  not_canReturn_throw fault a returned := by
    cases returned

/-- The locations of a result are in a file, and a match passes over tokens. -/
def Result.Within {α : Type} (file : String) (reader : Reader) : Result α → Prop
  | .success location _ next =>
      location.fileName = file ∧ ∃ front, reader.Passes front next
  | .failure location _ => location.fileName = file

theorem Result.Within.of_passes
    {α : Type}
    {file : String}
    {reader middle : Reader}
    {front : List Token}
    {result : Result α}
    (within : result.Within file middle)
    (passes : reader.Passes front middle) :
    result.Within file reader := by
  cases result with
  | failure location message =>
      exact within
  | success location value next =>
      obtain ⟨locationIn, back, passesOn⟩ := within
      exact ⟨locationIn, front ++ back, passes.trans passesOn⟩

/-- Behind a match the reader stands further on. -/
def Result.Further {α : Type} (reader : Reader) : Result α → Prop
  | .success _ _ next => reader.pos < next.pos
  | .failure _ _ => True

namespace Ensures

variable {ε : Type} {m : Type → Type} [MonadAttach m]
variable {α β : Type}

theorem trivial (x : m α) : Ensures x fun _ => True :=
  fun _ _ => True.intro

theorem of_throw
    [MonadExcept (Fault ε) m]
    [Abrupt ε m]
    (fault : Fault ε)
    (P : α → Prop) :
    Ensures (throw fault : m α) P :=
  fun a returned => absurd returned (Abrupt.not_canReturn_throw fault a)

theorem and
    {P Q : α → Prop}
    {x : m α}
    (first : Ensures x P)
    (second : Ensures x Q) :
    Ensures x fun a => P a ∧ Q a :=
  fun a returned => ⟨first a returned, second a returned⟩

variable [Monad m] [LawfulMonad m] [LawfulMonadAttach m]

theorem of_pure
    {P : α → Prop}
    {a : α}
    (holds : P a) :
    Ensures (pure a : m α) P := by
  intro b returned
  rw [← LawfulMonadAttach.eq_of_canReturn_pure returned]
  exact holds

theorem bind
    {P : α → Prop}
    {Q : β → Prop}
    {x : m α}
    {f : α → m β}
    (first : Ensures x P)
    (second : ∀ a, P a → Ensures (f a) Q) :
    Ensures (x >>= f) Q := by
  intro b returned
  obtain ⟨a, ofFirst, ofSecond⟩ := LawfulMonadAttach.canReturn_bind_imp' returned
  exact second a (first a ofFirst) b ofSecond

end Ensures

namespace Parser

variable {ν τ α β : Type} {ε : Type}
variable {m : Type → Type} [Monad m] [LawfulMonad m]
variable [MonadAttach m] [LawfulMonadAttach m]
variable [MonadExcept (Fault ε) m]
variable {file : String}

theorem cover_ensures
    {a b : Location}
    (left : a.fileName = file)
    (right : b.fileName = file) :
    Ensures (cover a b : m Location) fun location => location.fileName = file := by
  obtain ⟨location, inFile, covered⟩ := exists_cover (m := m) left right
  rw [covered]
  exact Ensures.of_pure inFile

theorem expect_within
    {reader : Reader}
    (inFile : reader.InFile file)
    (matching : Token → Bool)
    (expected : String)
    (found : Token → String) :
    (expect matching expected found reader).Within file reader := by
  unfold expect
  split
  · exact inFile.location
  · rename_i token next moved
    have passes := Reader.Passes.of_next? moved
    have tokenIn : token.location.fileName = file :=
      inFile.head passes.rest_eq
    split
    · exact ⟨tokenIn, _, passes⟩
    · exact tokenIn

theorem expect_further
    (reader : Reader)
    (matching : Token → Bool)
    (expected : String)
    (found : Token → String) :
    (expect matching expected found reader).Further reader := by
  unfold expect
  split
  · exact True.intro
  · rename_i token next moved
    have ahead := (Reader.Passes.of_next? moved).pos_eq
    split
    · simp only [Result.Further, ahead, List.length_singleton]
      omega
    · exact True.intro

theorem onSuccess_ensures
    {P : Result α → Prop}
    {Q : Result β → Prop}
    {outcome : m (Result α)}
    {go : Location → α → Reader → m (Result β)}
    (first : Ensures outcome P)
    (failed : ∀ location message,
      P (.failure location message) → Q (.failure location message))
    (second : ∀ location value next,
      P (.success location value next) → Ensures (go location value next) Q) :
    Ensures (onSuccess outcome go) Q := by
  refine first.bind ?_
  intro result holds
  cases result with
  | failure location message =>
      exact Ensures.of_pure (failed location message holds)
  | success location value next =>
      exact second location value next holds

theorem onSuccess_within
    {reader : Reader}
    {outcome : m (Result α)}
    {go : Location → α → Reader → m (Result β)}
    (first : Ensures outcome (Result.Within file reader))
    (second : ∀ location value next front,
      location.fileName = file → reader.Passes front next →
      Ensures (go location value next) (Result.Within file reader)) :
    Ensures (onSuccess outcome go) (Result.Within file reader) := by
  refine onSuccess_ensures first (fun _ _ within => within) ?_
  rintro location value next ⟨locationIn, front, passes⟩
  exact second location value next front locationIn passes

section Loops

variable [Abrupt ε m]
variable {step : Reader → m (Result β)}

theorem repeatFrom_within
    (stays : ∀ reader, reader.InFile file → Ensures (step reader) (Result.Within file reader))
    (rounds : List Token)
    {location : Location}
    {reader : Reader}
    (locationIn : location.fileName = file)
    (inFile : reader.InFile file) :
    Ensures (repeatFrom step rounds location reader) (Result.Within file reader) := by
  induction rounds generalizing location reader with
  | nil =>
      rw [repeatFrom]
      refine (stays reader inFile).bind ?_
      intro result within
      cases result with
      | failure _ _ =>
          exact Ensures.of_pure ⟨locationIn, [], .refl reader⟩
      | success here value next =>
          refine (cover_ensures locationIn within.1).bind ?_
          intro wider _
          exact Ensures.of_throw _ _
  | cons round rounds ih =>
      rw [repeatFrom]
      refine (stays reader inFile).bind ?_
      intro result within
      cases result with
      | failure _ _ =>
          exact Ensures.of_pure ⟨locationIn, [], .refl reader⟩
      | success here value next =>
          obtain ⟨hereIn, front, passes⟩ := within
          refine (cover_ensures locationIn hereIn).bind ?_
          intro wider widerIn
          have rest :
              Ensures (repeatFrom step rounds wider next) (Result.Within file reader) :=
            fun later returned =>
              (ih widerIn (inFile.of_passes passes) later returned).of_passes passes
          refine onSuccess_within rest ?_
          intro covered values stop passed coveredIn passesOn
          exact Ensures.of_pure ⟨coveredIn, passed, passesOn⟩

theorem foldFrom_within
    (stays : ∀ reader, reader.InFile file → Ensures (step reader) (Result.Within file reader))
    (combine : α → β → Location → m α)
    (rounds : List Token)
    {location : Location}
    {reader : Reader}
    (locationIn : location.fileName = file)
    (inFile : reader.InFile file)
    (value : α) :
    Ensures (foldFrom step combine rounds location value reader)
      (Result.Within file reader) := by
  induction rounds generalizing location reader value with
  | nil =>
      rw [foldFrom]
      refine (stays reader inFile).bind ?_
      intro result within
      cases result with
      | failure _ _ =>
          exact Ensures.of_pure ⟨locationIn, [], .refl reader⟩
      | success here operand next =>
          refine (cover_ensures locationIn within.1).bind ?_
          intro wider _
          refine (Ensures.trivial _).bind ?_
          intro _ _
          exact Ensures.of_throw _ _
  | cons round rounds ih =>
      rw [foldFrom]
      refine (stays reader inFile).bind ?_
      intro result within
      cases result with
      | failure _ _ =>
          exact Ensures.of_pure ⟨locationIn, [], .refl reader⟩
      | success here operand next =>
          obtain ⟨hereIn, front, passes⟩ := within
          refine (cover_ensures locationIn hereIn).bind ?_
          intro wider widerIn
          refine (Ensures.trivial _).bind ?_
          intro folded _ later returned
          have rest := ih widerIn (inFile.of_passes passes) folded later returned
          exact rest.of_passes passes

end Loops

variable [Abrupt ε m]

/-- A parser stays in the file if the forward parsers do. -/
theorem runWith_within
    {call : ν → Reader → m (Result τ)}
    (calls : ∀ name reader, reader.InFile file →
      Ensures (call name reader) (Result.Within file reader))
    (p : Parser ν τ m α)
    {reader : Reader}
    (inFile : reader.InFile file) :
    Ensures (runWith call p reader) (Result.Within file reader) := by
  induction p generalizing reader with
  | reserved name text =>
      rw [runWith]
      exact Ensures.of_pure (expect_within inFile _ _ _)
  | tag name =>
      rw [runWith]
      exact Ensures.of_pure (expect_within inFile _ _ _)
  | fail message =>
      rw [runWith]
      exact Ensures.of_pure inFile.location
  | forward name =>
      rw [runWith]
      exact calls name reader inFile
  | phrase p ih =>
      rw [runWith]
      refine onSuccess_within (ih inFile) ?_
      intro location value next front locationIn passes
      split
      · exact Ensures.of_pure ⟨locationIn, front, passes⟩
      · exact Ensures.of_pure (inFile.of_passes passes).location
  | process p action ih =>
      rw [runWith]
      refine onSuccess_within (ih inFile) ?_
      intro location value next front locationIn passes
      refine (Ensures.trivial _).bind ?_
      intro _ _
      exact Ensures.of_pure ⟨locationIn, front, passes⟩
  | seq p q ihLeft ihRight =>
      rw [runWith]
      refine onSuccess_within (ihLeft inFile) ?_
      intro first left middle front firstIn passes
      have behind : Ensures (runWith call q middle) (Result.Within file reader) :=
        fun result returned =>
          (ihRight (inFile.of_passes passes) result returned).of_passes passes
      refine onSuccess_within behind ?_
      intro second right next passed secondIn passesOn
      refine (cover_ensures firstIn secondIn).bind ?_
      intro covered coveredIn
      exact Ensures.of_pure ⟨coveredIn, passed, passesOn⟩
  | orElse p q ihLeft ihRight =>
      rw [runWith]
      refine (ihLeft inFile).bind ?_
      intro result within
      cases result with
      | success location value next =>
          exact Ensures.of_pure within
      | failure _ _ =>
          exact ihRight inFile
  | rep p ih =>
      rw [runWith]
      exact repeatFrom_within (fun _ placeIn => ih placeIn) _ inFile.location inFile
  | leftRec p q combine ihLeft ihRight =>
      rw [runWith]
      refine onSuccess_within (ihLeft inFile) ?_
      intro location value next front locationIn passes result returned
      have rest :=
        foldFrom_within (fun _ placeIn => ihRight placeIn) combine next.rest locationIn
          (inFile.of_passes passes) value
      exact (rest result returned).of_passes passes

theorem callForward_within
    (definitions : Definitions ν τ m)
    (limit : Nat)
    (name : ν)
    {reader : Reader}
    (inFile : reader.InFile file) :
    Ensures (callForward definitions limit name reader) (Result.Within file reader) := by
  induction limit generalizing name reader with
  | zero =>
      unfold callForward
      split
      · exact Ensures.of_throw _ _
      · exact Ensures.of_throw _ _
  | succ limit ih =>
      unfold callForward
      split
      · exact Ensures.of_throw _ _
      · exact runWith_within (fun name _ placeIn => ih name placeIn) _ inFile

/-- A run reports locations in the file of its tokens and passes over tokens only. -/
theorem run_within
    (definitions : Definitions ν τ m)
    (limit : Nat)
    (p : Parser ν τ m α)
    {reader : Reader}
    (inFile : reader.InFile file) :
    Ensures (run definitions limit p reader) (Result.Within file reader) :=
  runWith_within (fun name _ placeIn => callForward_within definitions limit name placeIn)
    p inFile

section Further

variable {definitions : Definitions ν τ m} {limit : Nat}
variable {reader : Reader}

omit [Abrupt ε m] in
theorem run_reserved_further
    (tag : Tag)
    (text : String) :
    Ensures (run definitions limit (.reserved tag text) reader) (Result.Further reader) := by
  unfold run
  rw [runWith]
  exact Ensures.of_pure (expect_further reader _ _ _)

omit [Abrupt ε m] in
theorem run_process_further
    {p : Parser ν τ m α}
    (further : Ensures (run definitions limit p reader) (Result.Further reader))
    (action : α → Location → m β) :
    Ensures (run definitions limit (p.process action) reader) (Result.Further reader) := by
  unfold run at further ⊢
  rw [runWith]
  refine onSuccess_ensures further (fun _ _ _ => True.intro) ?_
  intro location value next ahead
  refine (Ensures.trivial _).bind ?_
  intro processed _
  exact Ensures.of_pure ahead

/-- What follows a match that goes further does not go back. -/
theorem run_seq_further
    {p : Parser ν τ m α}
    (further : Ensures (run definitions limit p reader) (Result.Further reader))
    (inFile : reader.InFile file)
    (q : Parser ν τ m β) :
    Ensures (run definitions limit (p.seq q) reader) (Result.Further reader) := by
  have first := further.and (run_within definitions limit p inFile)
  unfold run at first ⊢
  rw [runWith]
  refine onSuccess_ensures first (fun _ _ _ => True.intro) ?_
  rintro here left middle ⟨ahead, hereIn, front, passes⟩
  have second := run_within definitions limit q (inFile.of_passes passes)
  refine onSuccess_ensures second (fun _ _ _ => True.intro) ?_
  rintro there right next ⟨thereIn, back, passesOn⟩
  refine (cover_ensures hereIn thereIn).bind ?_
  intro covered _
  refine Ensures.of_pure ?_
  have further := passesOn.pos_eq
  simp only [Result.Further] at ahead ⊢
  omega

theorem run_keepRight_further
    {p : Parser ν τ m α}
    (further : Ensures (run definitions limit p reader) (Result.Further reader))
    (inFile : reader.InFile file)
    (q : Parser ν τ m β) :
    Ensures (run definitions limit (p.keepRight q) reader) (Result.Further reader) :=
  run_process_further (run_seq_further further inFile q) fun value _ => pure value.2

end Further
end Parser
end Precedence
