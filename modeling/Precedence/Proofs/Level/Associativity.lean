import Precedence.Proofs.Level.Operands
import Precedence.Proofs.Parser.Confinement
import Precedence.Proofs.Recording

/-!
# Both associativities read the same operands

Two levels of one operator, one that groups to the left and one that groups to the right,
are compared over the same operands. The calls of the combining function are recorded, so
that the order and the number of them can be compared, too.

`leftAssociative_rightAssociative_alike` says that the levels accept the same readers, fail
with the same failure, stop at the same reader and read the same operands. Their values are
the two folds of these operands, and each operand but the first costs one call.
-/

namespace Precedence
namespace Level

section Calls

variable {τ : Type}

/-- The calls of a fold from the left, in the order in which they are made. -/
def leftCalls (f : τ → τ → τ) : τ → List τ → List (τ × τ)
  | _, [] => []
  | first, second :: rest => (first, second) :: leftCalls f (f first second) rest

/-- The calls of a fold from the right, in the order in which they are made. -/
def rightCalls (f : τ → τ → τ) : τ → List τ → List (τ × τ)
  | _, [] => []
  | first, second :: rest =>
      rightCalls f second rest ++ [(first, foldRight f second rest)]

variable (f : τ → τ → τ)

theorem length_leftCalls
    (first : τ)
    (rest : List τ) :
    (leftCalls f first rest).length = rest.length := by
  induction rest generalizing first with
  | nil =>
      rfl
  | cons second rest ih =>
      simp only [leftCalls, List.length_cons, ih]

theorem length_rightCalls
    (first : τ)
    (rest : List τ) :
    (rightCalls f first rest).length = rest.length := by
  induction rest generalizing first with
  | nil =>
      rfl
  | cons second rest ih =>
      simp only [rightCalls, List.length_append, List.length_cons, List.length_nil, ih]

end Calls

section Recorded

variable {ν τ α β ε : Type}

/-- A monad that keeps a record of calls. -/
abbrev Recorded (ε τ : Type) := ExceptT (Fault ε) (StateM (List (τ × τ)))

/-- What a computation ends with, and the record behind it. -/
def observe (x : Recorded ε τ α) (calls : List (τ × τ)) :
    Except (Fault ε) α × List (τ × τ) :=
  (x.run.run calls).run

/-- A function whose calls are recorded. -/
def recorded (f : τ → τ → τ) (a b : τ) : Recorded ε τ τ := do
  modify (· ++ [(a, b)])
  return f a b

theorem observe_pure
    (a : α)
    (calls : List (τ × τ)) :
    observe (pure a : Recorded ε τ α) calls = (.ok a, calls) :=
  rfl

theorem observe_recorded
    (f : τ → τ → τ)
    (a b : τ)
    (calls : List (τ × τ)) :
    observe (recorded (ε := ε) f a b) calls = (.ok (f a b), calls ++ [(a, b)]) :=
  rfl

theorem observe_bind
    {x : Recorded ε τ α}
    {calls calls' : List (τ × τ)}
    {a : α}
    (first : observe x calls = (.ok a, calls'))
    (f : α → Recorded ε τ β) :
    observe (x >>= f) calls = observe (f a) calls' := by
  have ends : Recording.ending x calls = (.ok a, calls') := first
  exact (Recording.ending_bind x f calls).trans (by rw [ends]; rfl)

theorem observe_foldlM
    (f : τ → τ → τ)
    (first : τ)
    (rest : List τ)
    (calls : List (τ × τ)) :
    observe (rest.foldlM (recorded (ε := ε) f) first) calls =
      (.ok (rest.foldl f first), calls ++ leftCalls f first rest) := by
  induction rest generalizing first calls with
  | nil =>
      rw [List.foldlM_nil, observe_pure, leftCalls, List.append_nil, List.foldl_nil]
  | cons second rest ih =>
      rw [List.foldlM_cons, observe_bind (observe_recorded f first second calls), ih,
        leftCalls, List.foldl_cons, List.append_assoc, List.singleton_append]

theorem observe_reduceRight
    (f : τ → τ → τ)
    (first : τ)
    (rest : List τ)
    (calls : List (τ × τ)) :
    observe (reduceRight (ε := ε) (recorded f) (first :: rest)) calls =
      (.ok (foldRight f first rest), calls ++ rightCalls f first rest) := by
  induction rest generalizing first calls with
  | nil =>
      rw [reduceRight, observe_pure, foldRight, rightCalls, List.append_nil]
  | cons second rest ih =>
      rw [reduceRight, observe_bind (ih second calls), observe_recorded, foldRight,
        rightCalls, List.append_assoc]
      exact List.cons_ne_nil second rest

theorem canReturn_pure (a : α) :
    MonadAttach.CanReturn (pure a : Recorded ε τ α) a :=
  ⟨[], [], rfl⟩

theorem pure_injective
    {a b : α}
    (same : (pure a : Recorded ε τ α) = pure b) :
    a = b := by
  have returned : MonadAttach.CanReturn (pure a : Recorded ε τ α) b := by
    rw [same]
    exact canReturn_pure b
  exact LawfulMonadAttach.eq_of_canReturn_pure returned

open Precedence.Parser

variable {definitions : Definitions ν τ (Recorded ε τ)} {limit : Nat}
variable {next : Parser ν τ (Recorded ε τ) τ} {operator : Parser ν τ (Recorded ε τ) β}
variable {reader : Reader} {file : String}

theorem within_of_run
    {p : Parser ν τ (Recorded ε τ) α}
    {result : Result α}
    (inFile : reader.InFile file)
    (ran : run definitions limit p reader = pure result) :
    result.Within file reader := by
  refine run_within definitions limit p inFile result ?_
  rw [ran]
  exact canReturn_pure result

/-- An operator with an operand behind it is a steady step, if it consumes tokens. -/
theorem steady_keepRight
    (inFile : reader.InFile file)
    (nextEnds : ∀ place, reader.SameTokens place →
      ∃ result, run definitions limit next place = pure result)
    (operatorEnds : ∀ place, reader.SameTokens place →
      ∃ result, run definitions limit operator place = pure result)
    (consumes : ∀ place location value behind, reader.SameTokens place →
      run definitions limit (operator.keepRight next) place =
        pure (.success location value behind) →
      place.pos < behind.pos) :
    Steady (run definitions limit (operator.keepRight next)) reader.SameTokens file := by
  refine ⟨?_, ?_⟩
  · intro place same
    have placeIn : place.InFile file := inFile.of_sameTokens same
    obtain ⟨result, ran⟩ := operatorEnds place same
    cases result with
    | failure location message =>
        exact ⟨_, runWith_keepRight_failure ran⟩
    | success here symbol middle =>
        obtain ⟨hereIn, front, passes⟩ := within_of_run placeIn ran
        have middleIn := placeIn.of_passes passes
        obtain ⟨result, ranBehind⟩ := nextEnds middle (same.of_passes passes)
        cases result with
        | failure location message =>
            exact ⟨_, runWith_keepRight_failure_behind ran ranBehind⟩
        | success there operand behind =>
            have thereIn := (within_of_run middleIn ranBehind).1
            obtain ⟨location, _, both⟩ :=
              runWith_keepRight_success ran ranBehind hereIn thereIn
            exact ⟨_, both⟩
  · intro place location value behind same ran
    have placeIn : place.InFile file := inFile.of_sameTokens same
    obtain ⟨locationIn, front, passes⟩ := within_of_run placeIn ran
    have sameBehind := same.of_passes passes
    have later := consumes place location value behind same ran
    exact ⟨locationIn, sameBehind, same.length_rest_lt sameBehind later⟩

/--
What a level to the left and a level to the right make of the first operand, given the step
that reads an operator with an operand behind it.
-/
structure SameOperands
    (f : τ → τ → τ)
    (step left right : Reader → Recorded ε τ (Result τ))
    (reader : Reader)
    (first : τ)
    (behind : Reader)
    (rest : List τ)
    (stop : Reader) : Prop where
  operands : Repeats step behind rest stop
  unique : ∀ rest' stop', Repeats step behind rest' stop' → rest' = rest ∧ stop' = stop
  fails : ∃ location message, step stop = pure (.failure location message)
  left : ∃ location, ∀ calls, observe (left reader) calls =
    (.ok (.success location (rest.foldl f first) stop), calls ++ leftCalls f first rest)
  right : ∃ location, ∀ calls, observe (right reader) calls =
    (.ok (.success location (foldRight f first rest) stop), calls ++ rightCalls f first rest)
  length_left : (leftCalls f first rest).length = rest.length
  length_right : (rightCalls f first rest).length = rest.length
  single : rest = [] → rest.foldl f first = first ∧ foldRight f first rest = first
  equal : (∀ a b c, f (f a b) c = f a (f b c)) → foldRight f first rest = rest.foldl f first

/-- Two levels fail as their operand fails, or else read the same operands. -/
def ReadAlike
    (f : τ → τ → τ)
    (next step left right : Reader → Recorded ε τ (Result τ))
    (reader : Reader) : Prop :=
  (∃ location message,
    next reader = pure (.failure location message) ∧
    left reader = pure (.failure location message) ∧
    right reader = pure (.failure location message)) ∨
  ∃ here first behind rest stop,
    next reader = pure (.success here first behind) ∧
    SameOperands f step left right reader first behind rest stop

/--
The levels of an operator over the same operands, grouping to the left and to the right,
fail alike or stop alike behind the same operands. The values are the two folds of the
operands, one call for each operand but the first, and equal if the function is associative.
-/
theorem leftAssociative_rightAssociative_alike
    (definitions : Definitions ν τ (Recorded ε τ))
    (limit : Nat)
    (top next : Parser ν τ (Recorded ε τ) τ)
    (operator : Parser ν τ (Recorded ε τ) β)
    (f : τ → τ → τ)
    (reader : Reader)
    (oneFile : InOneFile reader.tokens)
    (nextEnds : ∀ place, reader.SameTokens place →
      ∃ result, run definitions limit next place = pure result)
    (operatorEnds : ∀ place, reader.SameTokens place →
      ∃ result, run definitions limit operator place = pure result)
    (consumes : ∀ place location value behind, reader.SameTokens place →
      run definitions limit (operator.keepRight next) place =
        pure (.success location value behind) →
      place.pos < behind.pos) :
    ∃ left right,
      leftAssociative (ε := ε) operator (recorded f) top (some next) = .ok (some left) ∧
      rightAssociative (ε := ε) operator (recorded f) top (some next) = .ok (some right) ∧
      ReadAlike f (run definitions limit next)
        (run definitions limit (operator.keepRight next))
        (run definitions limit left) (run definitions limit right) reader := by
  refine ⟨_, _, rfl, rfl, ?_⟩
  have inFile := Reader.inFile_of_inOneFile oneFile
  have steady := steady_keepRight inFile nextEnds operatorEnds consumes
  have here := Reader.SameTokens.refl reader
  obtain ⟨result, ran⟩ := nextEnds reader here
  cases result with
  | failure location message =>
      left
      exact ⟨location, message, ran, runWith_leftAssociative_failure ran _,
        runWith_rightAssociative_failure ran _⟩
  | success location first behind =>
      right
      obtain ⟨locationIn, front, passes⟩ := within_of_run inFile ran
      have there := here.of_passes passes
      have behindIn := (inFile.of_passes passes).location
      obtain ⟨rest, stop, repeats⟩ := steady.exists_repeats there
      obtain ⟨leftLocation, _, leftRun⟩ :=
        runWith_leftAssociative steady ran locationIn there repeats (recorded f)
      obtain ⟨rightLocation, _, rightRun⟩ :=
        runWith_rightAssociative steady ran locationIn there behindIn repeats (recorded f)
      refine ⟨location, first, behind, rest, stop, ran, ?_⟩
      constructor
      case operands =>
        exact repeats
      case unique =>
        intro rest' stop' repeats'
        exact repeats.unique pure_injective repeats'
      case fails =>
        exact repeats.fails_at_stop
      case left =>
        refine ⟨leftLocation, ?_⟩
        intro calls
        unfold run
        rw [leftRun, observe_bind (observe_foldlM f first rest calls), observe_pure]
      case right =>
        refine ⟨rightLocation, ?_⟩
        intro calls
        unfold run
        rw [rightRun, observe_bind (observe_reduceRight f first rest calls), observe_pure]
      case length_left =>
        exact length_leftCalls f first rest
      case length_right =>
        exact length_rightCalls f first rest
      case single =>
        rintro rfl
        exact ⟨rfl, rfl⟩
      case equal =>
        intro assoc
        exact foldRight_eq_foldl assoc first rest

/-- The two levels of `-` over integers, in front of `1 - 2 - 3 -`. -/
theorem leftAssociative_rightAssociative_alike_minus :
    let place := Location.startOf "sum"
    let minus : Token := ⟨"-", Tag.operator, place⟩
    let reader := Reader.ofTokens "sum"
      [⟨"1", Tag.integer, place⟩, minus, ⟨"2", Tag.integer, place⟩, minus,
        ⟨"3", Tag.integer, place⟩, minus]
    let next : Parser Unit String (Recorded Empty String) String := .tag Tag.integer
    let operator : Parser Unit String (Recorded Empty String) String :=
      .reserved Tag.operator "-"
    let f := fun a b : String => "(" ++ a ++ "-" ++ b ++ ")"
    ∃ left right,
      leftAssociative (ε := Empty) operator (recorded f) (.forward ()) (some next) =
        .ok (some left) ∧
      rightAssociative (ε := Empty) operator (recorded f) (.forward ()) (some next) =
        .ok (some right) ∧
      ReadAlike f (run .empty 0 next) (run .empty 0 (operator.keepRight next))
        (run .empty 0 left) (run .empty 0 right) reader := by
  intro place minus reader next operator f
  have oneFile : InOneFile reader.tokens := by
    decide
  refine leftAssociative_rightAssociative_alike .empty 0 (.forward ()) next operator f reader
    oneFile (fun place _ => ⟨_, rfl⟩) (fun place _ => ⟨_, rfl⟩) ?_
  intro place location value behind same ran
  have inFile := (Reader.inFile_of_inOneFile oneFile).of_sameTokens same
  have first : Ensures (run .empty 0 operator place) (Result.Further place) :=
    run_reserved_further Tag.operator "-"
  have further := run_keepRight_further first inFile next (.success location value behind)
  rw [ran] at further
  exact further (canReturn_pure _)

end Recorded
end Level
end Precedence
