import Precedence.Proofs.Parser.Rules

/-!
# Repetitions

A repetition makes a step again and again until the step fails. `Repeats` is the run of it
as a relation: the values that the steps give, in order, and the reader at which the step
fails. It determines what both loops of the parsers do.

* `Steady` collects what a step has to keep up for that: it ends without a fault, it stays
  in the file and it consumes a token whenever it matches.
* `Steady.exists_repeats`: the repetition of a steady step ends.
* `Steady.repeatFrom_eq`: collecting gives the list of the values.
* `Steady.foldFrom_eq`: folding is a fold over the list of the values, effects included.

Neither loop runs out of rounds, as each round consumes a token.
-/

namespace Precedence
namespace Parser

variable {ε : Type}
variable {m : Type → Type} [Monad m] [MonadExcept (Fault ε) m]
variable {α β : Type}

/-- The step matches time after time, with the given values, and then fails. -/
inductive Repeats (step : Reader → m (Result β)) : Reader → List β → Reader → Prop
  | stop
      {reader : Reader}
      {location : Location}
      {message : String}
      (fails : step reader = pure (.failure location message)) :
      Repeats step reader [] reader
  | more
      {reader next stop : Reader}
      {location : Location}
      {value : β}
      {values : List β}
      (matching : step reader = pure (.success location value next))
      (later : Repeats step next values stop) :
      Repeats step reader (value :: values) stop

/-- A step that ends at every good reader, goes on to good ones and consumes tokens. -/
structure Steady
    (step : Reader → m (Result β))
    (Good : Reader → Prop)
    (file : String) : Prop where
  ends : ∀ {reader}, Good reader → ∃ result, step reader = pure result
  keeps : ∀ {reader location value next}, Good reader →
    step reader = pure (.success location value next) →
    location.fileName = file ∧ Good next ∧ next.rest.length < reader.rest.length

namespace Repeats

variable {step : Reader → m (Result β)}
variable {reader stop stop' : Reader}
variable {values values' : List β}

/-- A step that determines its result determines its repetition. -/
theorem unique
    (determined : ∀ {a b : Result β}, (pure a : m (Result β)) = pure b → a = b)
    (first : Repeats step reader values stop)
    (second : Repeats step reader values' stop') :
    values' = values ∧ stop' = stop := by
  induction first generalizing values' stop' with
  | stop fails =>
      cases second with
      | stop _ =>
          exact ⟨rfl, rfl⟩
      | more matching _ =>
          rw [fails] at matching
          cases determined matching
  | more matching later ih =>
      cases second with
      | stop fails =>
          rw [fails] at matching
          cases determined matching
      | more matching' later' =>
          rw [matching] at matching'
          cases determined matching'
          obtain ⟨sameValues, sameStop⟩ := ih later'
          exact ⟨by rw [sameValues], sameStop⟩

/-- Behind a repetition the step fails. -/
theorem fails_at_stop
    (repeats : Repeats step reader values stop) :
    ∃ location message, step stop = pure (.failure location message) := by
  induction repeats with
  | stop fails =>
      exact ⟨_, _, fails⟩
  | more _ _ ih =>
      exact ih

/-- What holds where a repetition begins and behind each match holds where it stops. -/
theorem invariant
    {P : Reader → Prop}
    (repeats : Repeats step reader values stop)
    (start : P reader)
    (keeps : ∀ {place location value next},
      step place = pure (.success location value next) → P next) :
    P stop := by
  induction repeats with
  | stop _ =>
      exact start
  | more matching _ ih =>
      exact ih (keeps matching)

end Repeats

namespace Steady

variable {step : Reader → m (Result β)}
variable {Good : Reader → Prop}
variable {file : String}

/-- The repetition of a steady step comes to an end. -/
theorem exists_repeats
    (steady : Steady step Good file)
    {reader : Reader}
    (good : Good reader) :
    ∃ values stop, Repeats step reader values stop := by
  induction length : reader.rest.length using Nat.strongRecOn
    generalizing reader with
  | ind count ih =>
      obtain ⟨result, run⟩ := steady.ends good
      cases result with
      | failure location message =>
          exact ⟨[], reader, .stop run⟩
      | success location value next =>
          obtain ⟨_, goodNext, shorter⟩ := steady.keeps good run
          obtain ⟨values, stop, later⟩ :=
            ih next.rest.length (by omega) goodNext rfl
          exact ⟨value :: values, stop, .more run later⟩

section Loops

variable [LawfulMonad m]

/-- Collecting the values of a steady step gives the list of them. -/
theorem repeatFrom_eq
    (steady : Steady step Good file)
    {reader stop : Reader}
    {values : List β}
    (repeats : Repeats step reader values stop)
    (good : Good reader)
    (rounds : List Token)
    (enough : reader.rest.length ≤ rounds.length)
    {location : Location}
    (inFile : location.fileName = file) :
    ∃ covered,
      covered.fileName = file ∧
      repeatFrom step rounds location reader = pure (.success covered values stop) := by
  induction repeats generalizing rounds location with
  | stop fails =>
      refine ⟨location, inFile, ?_⟩
      rw [repeatFrom, fails]
      simp only [pure_bind]
  | @more reader next stop here value values matching later ih =>
      obtain ⟨hereIn, goodNext, shorter⟩ := steady.keeps good matching
      obtain ⟨wider, widerIn, cover⟩ := exists_cover (m := m) inFile hereIn
      cases rounds with
      | nil =>
          simp only [List.length_nil] at enough
          omega
      | cons round rounds =>
          simp only [List.length_cons] at enough
          obtain ⟨covered, coveredIn, rest⟩ :=
            ih goodNext rounds (by omega) widerIn
          refine ⟨covered, coveredIn, ?_⟩
          rw [repeatFrom, matching]
          simp only [pure_bind, cover, rest, onSuccess_success]

/-- Folding the values of a steady step is a fold over the list of them. -/
theorem foldFrom_eq
    (steady : Steady step Good file)
    {reader stop : Reader}
    {values : List β}
    (repeats : Repeats step reader values stop)
    (good : Good reader)
    (combine : α → β → m α)
    (rounds : List Token)
    (enough : reader.rest.length ≤ rounds.length)
    {location : Location}
    (inFile : location.fileName = file) :
    ∃ covered,
      covered.fileName = file ∧
      ∀ value,
        foldFrom step (fun a b _ => combine a b) rounds location value reader =
          values.foldlM combine value >>= fun folded =>
            pure (.success covered folded stop) := by
  induction repeats generalizing rounds location with
  | stop fails =>
      refine ⟨location, inFile, ?_⟩
      intro value
      rw [foldFrom, fails]
      simp only [pure_bind, List.foldlM_nil]
  | @more reader next stop here operand values matching later ih =>
      obtain ⟨hereIn, goodNext, shorter⟩ := steady.keeps good matching
      obtain ⟨wider, widerIn, cover⟩ := exists_cover (m := m) inFile hereIn
      cases rounds with
      | nil =>
          simp only [List.length_nil] at enough
          omega
      | cons round rounds =>
          simp only [List.length_cons] at enough
          obtain ⟨covered, coveredIn, rest⟩ :=
            ih goodNext rounds (by omega) widerIn
          refine ⟨covered, coveredIn, ?_⟩
          intro value
          rw [foldFrom, matching]
          simp only [pure_bind, cover, rest, List.foldlM_cons, bind_assoc]

end Loops
end Steady
end Parser
end Precedence
