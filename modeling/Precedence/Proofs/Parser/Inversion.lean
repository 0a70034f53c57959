import Precedence.Level
import Precedence.Proofs.Parser.Repetition

/-!
# What a run that ends tells about its parts

The rules of the combinators read backwards, for actions that only compute: if a compound
parser has a result, then its parts have had theirs, and these determine it.

Both loops are inverted into the relation `Repeats`, so that a level of operators is a first
operand, a repetition of rounds and a fold of its operands (`leftAssociative_inv`,
`rightAssociative_inv`).
-/

namespace Precedence
namespace Parser

variable {ν τ α β : Type} {ε : Type}
variable {call : ν → Reader → Except (Fault ε) (Result τ)}
variable {reader next : Reader}
variable {location : Location}

section Success

theorem bind_inv
    {x : Except ε α}
    {f : α → Except ε β}
    {b : β}
    (ran : (x >>= f) = .ok b) :
    ∃ a, x = .ok a ∧ f a = .ok b := by
  cases x with
  | error fault => cases ran
  | ok a => exact ⟨a, rfl, ran⟩

theorem mapError_inv
    {ε' : Type}
    {x : Except ε α}
    {f : ε → ε'}
    {a : α}
    (ran : x.mapError f = .ok a) :
    x = .ok a := by
  cases x with
  | error fault => cases ran
  | ok value =>
      cases ran
      rfl

variable {outcome : Except (Fault ε) (Result α)}
variable {go : Location → α → Reader → Except (Fault ε) (Result β)}
variable {result : Result β}

theorem onSuccess_inv
    (ran : onSuccess outcome go = .ok result) :
    (∃ here value middle,
      outcome = .ok (.success here value middle) ∧ go here value middle = .ok result) ∨
    ∃ here message, outcome = .ok (.failure here message) ∧ result = .failure here message := by
  cases outcome with
  | error fault => cases ran
  | ok first =>
      cases first with
      | success here value middle => exact .inl ⟨here, value, middle, rfl, ran⟩
      | failure here message =>
          cases ran
          exact .inr ⟨here, message, rfl, rfl⟩

theorem onSuccess_success_inv
    {value : β}
    (ran : onSuccess outcome go = .ok (.success location value next)) :
    ∃ here first middle,
      outcome = .ok (.success here first middle) ∧
      go here first middle = .ok (.success location value next) := by
  rcases onSuccess_inv ran with ⟨here, first, middle, ranFirst, ranSecond⟩ | ⟨_, _, _, same⟩
  · exact ⟨here, first, middle, ranFirst, ranSecond⟩
  · cases same

end Success

section Parts

variable {p : Parser ν τ (Except (Fault ε)) α} {q : Parser ν τ (Except (Fault ε)) β}

theorem expect_inv
    {matching : Token → Bool}
    {expected : String}
    {found : Token → String}
    {text : String}
    (ran : expect matching expected found reader = .success location text next) :
    ∃ token,
      reader.Passes [token] next ∧ matching token = true ∧ location = token.location ∧
      text = token.text := by
  unfold expect at ran
  split at ran
  · cases ran
  · rename_i token _ moved
    split at ran
    · rename_i same
      cases ran
      exact ⟨token, .of_next? moved, same, rfl, rfl⟩
    · cases ran

theorem phrase_inv
    {value : α}
    (ran : runWith call (.phrase p) reader = .ok (.success location value next)) :
    runWith call p reader = .ok (.success location value next) ∧ next.rest = [] := by
  rw [runWith] at ran
  obtain ⟨here, first, stop, ranFirst, ends⟩ := onSuccess_success_inv ran
  by_cases isEmpty : stop.isEmpty
  · rw [if_pos isEmpty] at ends
    cases ends
    exact ⟨ranFirst, List.isEmpty_iff.mp isEmpty⟩
  · rw [if_neg isEmpty] at ends
    cases ends

theorem process_inv
    {action : α → Location → Except (Fault ε) β}
    {value : β}
    (ran : runWith call (p.process action) reader = .ok (.success location value next)) :
    ∃ first,
      runWith call p reader = .ok (.success location first next) ∧
      action first location = .ok value := by
  rw [runWith] at ran
  obtain ⟨here, first, middle, ranFirst, ranAction⟩ := onSuccess_success_inv ran
  obtain ⟨other, acted, ranRest⟩ := bind_inv ranAction
  cases ranRest
  exact ⟨first, ranFirst, acted⟩

theorem process_failure_inv
    {action : α → Location → Except (Fault ε) β}
    {message : String}
    (ran : runWith call (p.process action) reader = .ok (.failure location message)) :
    runWith call p reader = .ok (.failure location message) := by
  rw [runWith] at ran
  rcases onSuccess_inv ran with ⟨here, first, middle, _, ranAction⟩ | ⟨_, _, fails, same⟩
  · obtain ⟨_, _, ranRest⟩ := bind_inv ranAction
    cases ranRest
  · cases same
    exact fails

theorem map_inv
    {f : α → β}
    {value : β}
    (ran : runWith call (p.map f) reader = .ok (.success location value next)) :
    ∃ first, runWith call p reader = .ok (.success location first next) ∧ value = f first := by
  obtain ⟨first, ranFirst, mapped⟩ := process_inv ran
  cases mapped
  exact ⟨first, ranFirst, rfl⟩

theorem seq_inv
    {values : α × β}
    (ran : runWith call (p.seq q) reader = .ok (.success location values next)) :
    ∃ here middle there,
      runWith call p reader = .ok (.success here values.1 middle) ∧
      runWith call q middle = .ok (.success there values.2 next) := by
  rw [runWith] at ran
  obtain ⟨here, left, middle, ranLeft, ran⟩ := onSuccess_success_inv ran
  obtain ⟨there, right, stop, ranRight, ran⟩ := onSuccess_success_inv ran
  obtain ⟨whole, _, ran⟩ := bind_inv ran
  cases ran
  exact ⟨here, middle, there, ranLeft, ranRight⟩

theorem seq_failure_inv
    {message : String}
    (ran : runWith call (p.seq q) reader = .ok (.failure location message)) :
    runWith call p reader = .ok (.failure location message) ∨
    ∃ here left middle,
      runWith call p reader = .ok (.success here left middle) ∧
      runWith call q middle = .ok (.failure location message) := by
  rw [runWith] at ran
  rcases onSuccess_inv ran with ⟨here, left, middle, ranLeft, ran⟩ | ⟨_, _, fails, same⟩
  · rcases onSuccess_inv ran with ⟨there, right, stop, _, ran⟩ | ⟨_, _, fails, same⟩
    · obtain ⟨_, _, ran⟩ := bind_inv ran
      cases ran
    · cases same
      exact .inr ⟨here, left, middle, ranLeft, fails⟩
  · cases same
    exact .inl fails

theorem keepRight_inv
    {value : β}
    (ran : runWith call (p.keepRight q) reader = .ok (.success location value next)) :
    ∃ here left middle there,
      runWith call p reader = .ok (.success here left middle) ∧
      runWith call q middle = .ok (.success there value next) := by
  obtain ⟨values, ranBoth, rfl⟩ := map_inv ran
  obtain ⟨here, middle, there, ranLeft, ranRight⟩ := seq_inv ranBoth
  exact ⟨here, values.1, middle, there, ranLeft, ranRight⟩

theorem keepLeft_inv
    {value : α}
    (ran : runWith call (p.keepLeft q) reader = .ok (.success location value next)) :
    ∃ here middle there right,
      runWith call p reader = .ok (.success here value middle) ∧
      runWith call q middle = .ok (.success there right next) := by
  obtain ⟨values, ranBoth, rfl⟩ := map_inv ran
  obtain ⟨here, middle, there, ranLeft, ranRight⟩ := seq_inv ranBoth
  exact ⟨here, middle, there, values.2, ranLeft, ranRight⟩

theorem orElse_inv
    {q : Parser ν τ (Except (Fault ε)) α}
    {result : Result α}
    (ran : runWith call (p.orElse q) reader = .ok result) :
    (∃ here value middle,
      runWith call p reader = .ok (.success here value middle) ∧
      result = .success here value middle) ∨
    (∃ here message, runWith call p reader = .ok (.failure here message)) ∧
      runWith call q reader = .ok result := by
  rw [runWith] at ran
  obtain ⟨first, ranFirst, ran⟩ := bind_inv ran
  cases first with
  | success here value middle =>
      cases ran
      exact .inl ⟨here, value, middle, ranFirst, rfl⟩
  | failure here message => exact .inr ⟨⟨here, message, ranFirst⟩, ran⟩

end Parts

section Loops

variable {step : Reader → Except (Fault ε) (Result β)}
variable {rounds : List Token}

/-- Put a value behind those that were collected. -/
def collect (values : List β) (value : β) : Except (Fault ε) (List β) :=
  .ok (values ++ [value])

theorem foldlM_collect
    (front values : List β) :
    values.foldlM collect front = (.ok (front ++ values) : Except (Fault ε) (List β)) := by
  induction values generalizing front with
  | nil =>
      rw [List.append_nil]
      rfl
  | cons value values ih =>
      have rest := ih (front ++ [value])
      rw [List.append_assoc, List.singleton_append] at rest
      exact rest

theorem foldFrom_collect
    (rounds : List Token)
    (location : Location)
    (front : List β)
    (reader : Reader) :
    foldFrom step (fun values value _ => collect values value) rounds location front reader =
      onSuccess (repeatFrom step rounds location reader) fun covered values stop =>
        .ok (.success covered (front ++ values) stop) := by
  induction rounds generalizing location front reader with
  | nil =>
      rw [foldFrom, repeatFrom]
      cases step reader with
      | error fault => rfl
      | ok result =>
          cases result with
          | failure here message => simp [onSuccess, bind, Except.bind, pure, Except.pure]
          | success here value next =>
              simp only [bind, Except.bind]
              cases (cover location here : Except (Fault ε) Location) <;> rfl
  | cons round rounds ih =>
      rw [foldFrom, repeatFrom]
      cases step reader with
      | error fault => rfl
      | ok result =>
          cases result with
          | failure here message => simp [onSuccess, bind, Except.bind, pure, Except.pure]
          | success here value next =>
              simp only [bind, Except.bind]
              cases (cover location here : Except (Fault ε) Location) with
              | error fault => rfl
              | ok wider =>
                  change foldFrom step (fun values value _ => collect values value) rounds wider
                      (front ++ [value]) next =
                    onSuccess (onSuccess (repeatFrom step rounds wider next) _) _
                  rw [ih]
                  cases repeatFrom step rounds wider next with
                  | error fault => rfl
                  | ok later =>
                      cases later <;>
                        simp [onSuccess, bind, Except.bind, pure, Except.pure]

theorem repeatFrom_eq_foldFrom
    (rounds : List Token)
    (location : Location)
    (reader : Reader) :
    repeatFrom step rounds location reader =
      foldFrom step (fun values value _ => collect values value) rounds location [] reader := by
  rw [foldFrom_collect]
  cases repeatFrom step rounds location reader with
  | error fault => rfl
  | ok result => cases result <;> rfl

/-- A loop that ends has folded the values of a repetition of its step. -/
theorem foldFrom_inv
    {combine : α → β → Except (Fault ε) α}
    {value : α}
    {result : Result α}
    (ran : foldFrom step (fun a b _ => combine a b) rounds location value reader = .ok result) :
    ∃ covered folded values stop,
      result = .success covered folded stop ∧ Repeats step reader values stop ∧
      values.foldlM combine value = .ok folded := by
  induction rounds generalizing location value reader with
  | nil =>
      rw [foldFrom] at ran
      obtain ⟨first, stepped, ran⟩ := bind_inv ran
      cases first with
      | failure here message =>
          cases ran
          exact ⟨location, value, [], reader, rfl, .stop stepped, rfl⟩
      | success here operand next =>
          obtain ⟨wider, _, ran⟩ := bind_inv ran
          obtain ⟨folded, _, ran⟩ := bind_inv ran
          cases ran
  | cons round rounds ih =>
      rw [foldFrom] at ran
      obtain ⟨first, stepped, ran⟩ := bind_inv ran
      cases first with
      | failure here message =>
          cases ran
          exact ⟨location, value, [], reader, rfl, .stop stepped, rfl⟩
      | success here operand next =>
          obtain ⟨wider, _, ran⟩ := bind_inv ran
          obtain ⟨folded, combined, ran⟩ := bind_inv ran
          obtain ⟨covered, whole, values, stop, same, repeats, folds⟩ := ih ran
          refine ⟨covered, whole, operand :: values, stop, same, .more stepped repeats, ?_⟩
          rw [List.foldlM_cons, combined]
          exact folds

theorem repeatFrom_inv
    {result : Result (List β)}
    (ran : repeatFrom step rounds location reader = .ok result) :
    ∃ covered values stop,
      result = .success covered values stop ∧ Repeats step reader values stop := by
  rw [repeatFrom_eq_foldFrom] at ran
  obtain ⟨covered, folded, values, stop, rfl, repeats, folds⟩ := foldFrom_inv ran
  rw [foldlM_collect, List.nil_append] at folds
  cases folds
  exact ⟨covered, folded, stop, rfl, repeats⟩

end Loops

section Levels

variable {next : Parser ν τ (Except (Fault ε)) τ} {operator : Parser ν τ (Except (Fault ε)) β}
variable {combine : τ → τ → Except (Fault ε) τ}
variable {result : Result τ}

/-- What a level makes of the outcome of its first operand. -/
inductive LevelRun (call : ν → Reader → Except (Fault ε) (Result τ))
    (next : Parser ν τ (Except (Fault ε)) τ) (operator : Parser ν τ (Except (Fault ε)) β)
    (fold : τ → List τ → Except (Fault ε) τ) (reader : Reader) : Result τ → Prop
  | matched
      {here location : Location}
      {first value : τ}
      {rest : List τ}
      {behind stop : Reader}
      (ran : runWith call next reader = .ok (.success here first behind))
      (repeats : Repeats (runWith call (operator.keepRight next)) behind rest stop)
      (folds : fold first rest = .ok value) :
      LevelRun call next operator fold reader (.success location value stop)
  | unmatched
      {here : Location}
      {message : String}
      (ran : runWith call next reader = .ok (.failure here message)) :
      LevelRun call next operator fold reader (.failure here message)

theorem leftAssociative_inv
    (ran : runWith call (next.leftRec (operator.keepRight next) fun a b _ => combine a b)
      reader = .ok result) :
    LevelRun call next operator (fun first rest => rest.foldlM combine first) reader result := by
  rw [runWith] at ran
  rcases onSuccess_inv ran with ⟨here, first, behind, ranFirst, loop⟩ | ⟨_, _, fails, rfl⟩
  · obtain ⟨covered, folded, values, stop, rfl, repeats, folds⟩ := foldFrom_inv loop
    exact .matched ranFirst repeats folds
  · exact .unmatched fails

theorem rightAssociative_inv
    (ran : runWith call ((next.rep1Sep operator).process fun operands _ =>
      Level.reduceRight combine operands) reader = .ok result) :
    LevelRun call next operator (fun first rest => Level.reduceRight combine (first :: rest))
      reader result := by
  cases result with
  | success location value stop =>
      obtain ⟨operands, ranAll, folds⟩ := process_inv ran
      obtain ⟨values, ranBoth, rfl⟩ := map_inv ranAll
      obtain ⟨here, behind, there, ranFirst, loop⟩ := seq_inv ranBoth
      rw [runWith] at loop
      obtain ⟨covered, rest, stop, same, repeats⟩ := repeatFrom_inv loop
      obtain ⟨-, rfl, rfl⟩ := Result.success.inj same
      exact .matched ranFirst repeats folds
  | failure location message =>
      rcases seq_failure_inv (process_failure_inv (process_failure_inv ran)) with
        fails | ⟨_, _, behind, _, loop⟩
      · exact .unmatched fails
      · rw [runWith] at loop
        obtain ⟨_, _, _, same, _⟩ := repeatFrom_inv loop
        cases same

end Levels

end Parser
end Precedence
