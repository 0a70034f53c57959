import Mathlib.Data.List.Forall2
import Precedence.Proofs.Parser.Inversion

/-!
# Runs that correspond to each other

A parser looks at the text and the tag of a token, and it passes on the locations that it comes
across. So a run at one reader goes as a run at another one does if the tokens of both have the
same texts and tags, and what has a location in the one run has a location of its own in the
other. Which readers and which locations belong together is a parameter (`Correspondence`): it
has to be kept by a step over a token and by a cover of two locations.

What is put together of corresponding parsers corresponds (`Simulates`, one lemma for each
combinator). The runs raise the same faults, fail with the same messages, and have values that
are related by whatever relation the actions keep.
-/

namespace Precedence

/-- Two computations end alike: both with related errors, or both with related values. -/
inductive Parallel {ε ε' α α' : Type} (errors : ε → ε' → Prop) (values : α → α' → Prop) :
    Except ε α → Except ε' α' → Prop
  | error
      {error : ε}
      {error' : ε'}
      (related : errors error error') :
      Parallel errors values (.error error) (.error error')
  | ok
      {value : α}
      {value' : α'}
      (related : values value value') :
      Parallel errors values (.ok value) (.ok value')

namespace Parallel

variable {ε ε' δ δ' α α' β β' : Type}
variable {errors : ε → ε' → Prop} {others : δ → δ' → Prop}
variable {values : α → α' → Prop} {results : β → β' → Prop}
variable {x : Except ε α} {x' : Except ε' α'}

theorem bind
    {go : α → Except ε β}
    {go' : α' → Except ε' β'}
    (first : Parallel errors values x x')
    (second : ∀ {value value'}, values value value' →
      Parallel errors results (go value) (go' value')) :
    Parallel errors results (x >>= go) (x' >>= go') := by
  cases first with
  | error related => exact .error related
  | ok related => exact second related

theorem map
    {f : α → β}
    {f' : α' → β'}
    (ends : Parallel errors values x x')
    (keeps : ∀ {value value'}, values value value' → results (f value) (f' value')) :
    Parallel errors results (x.map f) (x'.map f') := by
  cases ends with
  | error related => exact .error related
  | ok related => exact .ok (keeps related)

theorem mapError
    {f : ε → δ}
    {f' : ε' → δ'}
    (ends : Parallel errors values x x')
    (keeps : ∀ {error error'}, errors error error' → others (f error) (f' error')) :
    Parallel others values (x.mapError f) (x'.mapError f') := by
  cases ends with
  | error related => exact .error (keeps related)
  | ok related => exact .ok related

/-- A computation that is the same on both sides. -/
theorem refl
    (x : Except ε α) :
    Parallel Eq Eq x x := by
  cases x with
  | error error => exact .error rfl
  | ok value => exact .ok rfl

theorem isOk_eq
    (ends : Parallel errors values x x') :
    x.isOk = x'.isOk := by
  cases ends <;> rfl

theorem ok_inv
    {value : α}
    (ends : Parallel errors values x x')
    (isOk : x = .ok value) :
    ∃ value', x' = .ok value' ∧ values value value' := by
  cases ends with
  | error related => cases isOk
  | ok related =>
      cases isOk
      exact ⟨_, rfl, related⟩

theorem error_inv
    {error : ε}
    (ends : Parallel errors values x x')
    (isError : x = .error error) :
    ∃ error', x' = .error error' ∧ errors error error' := by
  cases ends with
  | error related =>
      cases isError
      exact ⟨_, rfl, related⟩
  | ok related => cases isError

end Parallel

/-- Two tokens that only their locations tell apart, which are related. -/
structure Token.Corresponds (sites : Location → Location → Prop) (token token' : Token) : Prop where
  text : token.text = token'.text
  tag : token.tag = token'.tag
  location : sites token.location token'.location

/-- Which readers and which locations of two runs belong together. -/
structure Correspondence where
  places : Reader → Reader → Prop
  /-- Where single tokens and readers are, and where failures are. -/
  sites : Location → Location → Prop
  /-- Where matches are, of any number of tokens. -/
  spots : Location → Location → Prop
  next : ∀ {place place'}, places place place' →
    Option.Rel (fun step step' => step.1.Corresponds sites step'.1 ∧ places step.2 step'.2)
      place.next? place'.next?
  location : ∀ {place place'}, places place place' → sites place.location place'.location
  single : ∀ {a a'}, sites a a' → spots a a'
  combine : ∀ {a a' b b'}, spots a a' → spots b b' →
    Option.Rel spots (a.combine? b) (a'.combine? b')

namespace Correspondence

variable {c : Correspondence}
variable {place place' : Reader}

/-- As many tokens remain at both places. -/
theorem length_rest
    (placed : c.places place place') :
    place.rest.length = place'.rest.length := by
  obtain ⟨file, consumed, rest⟩ := place
  obtain ⟨file', consumed', rest'⟩ := place'
  induction rest generalizing consumed consumed' rest' with
  | nil =>
      have steps := c.next placed
      cases rest' with
      | nil => rfl
      | cons token' rest' => cases steps
  | cons token rest ih =>
      have steps := c.next placed
      cases rest' with
      | nil => cases steps
      | cons token' rest' =>
          cases steps with
          | some step => exact congrArg (· + 1) (ih _ _ _ step.2)

theorem isEmpty_eq
    (placed : c.places place place') :
    place.isEmpty = place'.isEmpty := by
  rw [Reader.isEmpty, Reader.isEmpty, Bool.eq_iff_iff, List.isEmpty_iff_length_eq_zero,
    List.isEmpty_iff_length_eq_zero, length_rest placed]

variable {ν τ α β : Type} {ε : Type}

/-- Results of corresponding runs, given how the locations of the matches are related. -/
inductive Results (c : Correspondence) (lies : Location → Location → Prop)
    (values : α → α → Prop) : Result α → Result α → Prop
  | failure
      {here there : Location}
      (site : c.sites here there)
      (message : String) :
      Results c lies values (.failure here message) (.failure there message)
  | success
      {here there : Location}
      {value value' : α}
      {next next' : Reader}
      (located : lies here there)
      (related : values value value')
      (placed : c.places next next') :
      Results c lies values (.success here value next) (.success there value' next')

theorem Results.of_sites
    {values : α → α → Prop}
    {x x' : Result α}
    (result : c.Results c.sites values x x') :
    c.Results c.spots values x x' := by
  cases result with
  | failure site message => exact .failure site message
  | success site related placed => exact .success (c.single site) related placed

/-- Outcomes of corresponding runs: the same fault, or results that correspond. -/
def Outcomes (c : Correspondence) (values : α → α → Prop) :
    Except (Fault ε) (Result α) → Except (Fault ε) (Result α) → Prop :=
  Parallel Eq (c.Results c.spots values)

variable {values : α → α → Prop} {operands : β → β → Prop}
variable {x x' : Except (Fault ε) (Result α)}

theorem Outcomes.onSuccess
    {go go' : Location → α → Reader → Except (Fault ε) (Result β)}
    (first : c.Outcomes values x x')
    (second : ∀ {here there value value' next next'},
      c.spots here there → values value value' → c.places next next' →
      c.Outcomes operands (go here value next) (go' there value' next')) :
    c.Outcomes operands (Parser.onSuccess x go) (Parser.onSuccess x' go') := by
  refine first.bind fun related => ?_
  cases related with
  | failure site message => exact .ok (.failure site message)
  | success spots related placed => exact second spots related placed

theorem cover
    {a a' b b' : Location}
    (first : c.spots a a')
    (second : c.spots b b') :
    Parallel (Eq (α := Fault ε)) c.spots (Parser.cover a b) (Parser.cover a' b') := by
  have covered := c.combine first second
  unfold Parser.cover
  generalize a.combine? b = wider, a'.combine? b' = wider' at covered
  cases covered with
  | some spots => exact .ok spots
  | none => exact .error rfl

/-- Loops with corresponding steps go on and end together. -/
theorem foldFrom
    {step step' : Reader → Except (Fault ε) (Result β)}
    {combine combine' : α → β → Location → Except (Fault ε) α}
    (steps : ∀ place place', c.places place place' →
      c.Outcomes operands (step place) (step' place'))
    (combines : ∀ {value value' operand operand' here there},
      values value value' → operands operand operand' → c.spots here there →
      Parallel Eq values (combine value operand here) (combine' value' operand' there))
    {rounds rounds' : List Token}
    (sameLength : rounds.length = rounds'.length)
    {here there : Location}
    (spots : c.spots here there)
    {value value' : α}
    (related : values value value')
    (placed : c.places place place') :
    c.Outcomes values (Parser.foldFrom step combine rounds here value place)
      (Parser.foldFrom step' combine' rounds' there value' place') := by
  induction rounds generalizing rounds' here there value value' place place' with
  | nil =>
      obtain rfl := List.eq_nil_of_length_eq_zero sameLength.symm
      rw [Parser.foldFrom, Parser.foldFrom]
      refine (steps _ _ placed).bind fun stepped => ?_
      cases stepped with
      | failure _ message => exact .ok (.success spots related placed)
      | success nextSpots operand _ =>
          refine (cover spots nextSpots).bind fun wider => ?_
          exact (combines related operand wider).bind fun _ => .error rfl
  | cons round rounds ih =>
      obtain ⟨round', rounds', rfl⟩ := List.exists_cons_of_length_eq_add_one sameLength.symm
      rw [Parser.foldFrom, Parser.foldFrom]
      refine (steps _ _ placed).bind fun stepped => ?_
      cases stepped with
      | failure _ message => exact .ok (.success spots related placed)
      | success nextSpots operand nextPlaced =>
          refine (cover spots nextSpots).bind fun wider => ?_
          refine (combines related operand wider).bind fun folded => ?_
          exact ih (Nat.succ.inj sameLength) wider folded nextPlaced

/-- A run of the one parser corresponds to a run of the other one at every two places that do. -/
def Simulates (c : Correspondence) (call call' : ν → Reader → Except (Fault ε) (Result τ))
    (values : α → α → Prop) (p p' : Parser ν τ (Except (Fault ε)) α) : Prop :=
  ∀ place place', c.places place place' →
    c.Outcomes values (Parser.runWith call p place) (Parser.runWith call' p' place')

section Combinators

variable {call call' : ν → Reader → Except (Fault ε) (Result τ)}
variable {p p' : Parser ν τ (Except (Fault ε)) α} {q q' : Parser ν τ (Except (Fault ε)) β}

/-- One token is expected by its text and its tag, and matched where it is. -/
theorem expect
    {matching : Token → Bool}
    {found : Token → String}
    (alike : ∀ {token token'}, token.Corresponds c.sites token' →
      matching token = matching token' ∧ found token = found token')
    (expected : String)
    (placed : c.places place place') :
    c.Results c.sites Eq (Parser.expect matching expected found place)
      (Parser.expect matching expected found place') := by
  have steps := c.next placed
  unfold Parser.expect
  generalize place.next? = step, place'.next? = step' at steps
  cases steps with
  | none => exact .failure (c.location placed) Parser.endMessage
  | @some step step' both =>
      obtain ⟨token, next⟩ := step
      obtain ⟨token', next'⟩ := step'
      obtain ⟨same, nextPlaced⟩ := both
      obtain ⟨sameMatch, sameFound⟩ := alike same
      dsimp only at sameMatch sameFound ⊢
      rw [sameMatch, sameFound]
      split
      · exact .success same.location same.text nextPlaced
      · exact .failure same.location _

theorem Simulates.reserved
    (tag : Tag)
    (text : String) :
    c.Simulates call call' Eq (.reserved tag text) (.reserved tag text) := by
  intro place place' placed
  rw [Parser.runWith, Parser.runWith]
  exact .ok (.of_sites (expect (fun same => ⟨by rw [same.tag, same.text], same.text⟩) text placed))

/-- An action on one token may make use of where the token is. -/
theorem Simulates.token
    {action action' : String → Location → Except (Fault ε) α}
    (tag : Tag)
    (actions : ∀ text {here there}, c.sites here there →
      Parallel Eq values (action text here) (action' text there)) :
    c.Simulates call call' values (.process (.tag tag) action) (.process (.tag tag) action') := by
  intro place place' placed
  rw [Parser.runWith, Parser.runWith, Parser.runWith, Parser.runWith]
  have expected : c.Results c.sites Eq
      (Parser.expect (fun token => token.tag == tag) tag Token.tag place)
      (Parser.expect (fun token => token.tag == tag) tag Token.tag place') :=
    expect (fun same => ⟨by rw [same.tag], same.tag⟩) tag placed
  generalize Parser.expect _ tag Token.tag place = x,
    Parser.expect _ tag Token.tag place' = x' at expected
  cases expected with
  | failure site message => exact .ok (.failure site message)
  | success site text nextPlaced =>
      cases text
      exact (actions _ site).bind fun processed => .ok (.success (c.single site) processed nextPlaced)

theorem Simulates.fail
    (message : String) :
    c.Simulates call call' values (.fail message) (.fail message) := by
  intro place place' placed
  rw [Parser.runWith, Parser.runWith]
  exact .ok (.failure (c.location placed) message)

theorem Simulates.phrase
    (same : c.Simulates call call' values p p') :
    c.Simulates call call' values p.phrase p'.phrase := by
  intro place place' placed
  rw [Parser.runWith, Parser.runWith]
  refine (same _ _ placed).onSuccess fun spots related nextPlaced => .ok ?_
  rw [isEmpty_eq nextPlaced]
  split
  · exact .success spots related nextPlaced
  · exact .failure (c.location nextPlaced) Parser.garbageMessage

theorem Simulates.process
    {action action' : α → Location → Except (Fault ε) β}
    (same : c.Simulates call call' values p p')
    (actions : ∀ {value value' here there}, values value value' → c.spots here there →
      Parallel Eq operands (action value here) (action' value' there)) :
    c.Simulates call call' operands (p.process action) (p'.process action') := by
  intro place place' placed
  rw [Parser.runWith, Parser.runWith]
  refine (same _ _ placed).onSuccess fun spots related nextPlaced => ?_
  exact (actions related spots).bind fun processed => .ok (.success spots processed nextPlaced)

theorem Simulates.seq
    (first : c.Simulates call call' values p p')
    (second : c.Simulates call call' operands q q') :
    c.Simulates call call' (fun pair pair' => values pair.1 pair'.1 ∧ operands pair.2 pair'.2)
      (p.seq q) (p'.seq q') := by
  intro place place' placed
  rw [Parser.runWith, Parser.runWith]
  refine (first _ _ placed).onSuccess fun leftSpots left middlePlaced => ?_
  refine (second _ _ middlePlaced).onSuccess fun rightSpots right nextPlaced => ?_
  exact (cover leftSpots rightSpots).bind fun wider => .ok (.success wider ⟨left, right⟩ nextPlaced)

theorem Simulates.keepLeft
    (first : c.Simulates call call' values p p')
    (second : c.Simulates call call' operands q q') :
    c.Simulates call call' values (p.keepLeft q) (p'.keepLeft q') :=
  (first.seq second).process fun both _ => .ok both.1

theorem Simulates.keepRight
    (first : c.Simulates call call' values p p')
    (second : c.Simulates call call' operands q q') :
    c.Simulates call call' operands (p.keepRight q) (p'.keepRight q') :=
  (first.seq second).process fun both _ => .ok both.2

theorem Simulates.orElse
    {r r' : Parser ν τ (Except (Fault ε)) α}
    (first : c.Simulates call call' values p p')
    (second : c.Simulates call call' values r r') :
    c.Simulates call call' values (p.orElse r) (p'.orElse r') := by
  intro place place' placed
  rw [Parser.runWith, Parser.runWith]
  refine (first _ _ placed).bind fun ended => ?_
  cases ended with
  | failure _ message => exact second _ _ placed
  | success spots related nextPlaced => exact .ok (.success spots related nextPlaced)

theorem Simulates.leftRec
    {combine combine' : α → β → Location → Except (Fault ε) α}
    (first : c.Simulates call call' values p p')
    (second : c.Simulates call call' operands q q')
    (combines : ∀ {value value' operand operand' here there},
      values value value' → operands operand operand' → c.spots here there →
      Parallel Eq values (combine value operand here) (combine' value' operand' there)) :
    c.Simulates call call' values (p.leftRec q combine) (p'.leftRec q' combine') := by
  intro place place' placed
  rw [Parser.runWith, Parser.runWith]
  refine (first _ _ placed).onSuccess fun spots related nextPlaced => ?_
  exact foldFrom second combines (length_rest nextPlaced) spots related nextPlaced

theorem Simulates.rep
    (same : c.Simulates call call' values p p') :
    c.Simulates call call' (List.Forall₂ values) p.rep p'.rep := by
  intro place place' placed
  rw [Parser.runWith, Parser.runWith, Parser.repeatFrom_eq_foldFrom, Parser.repeatFrom_eq_foldFrom]
  refine foldFrom same ?_ (length_rest placed) (c.single (c.location placed)) .nil placed
  exact fun collected operand _ => .ok (List.rel_append collected (.cons operand .nil))

end Combinators
end Correspondence
end Precedence
