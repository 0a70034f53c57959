import Precedence.Level

/-!
# The wiring of levels

Levels are called from the last to the first, the last one with the bottom parser and every
other one with what the one behind it built (`Wires`). A composition has four endings: all
levels built a parser and the name stands for the first one's, there was nothing to compose, or
a level raised a fault or built no parser, which ends the calls (`Composition`). It ends in just
one way, and the grammar and the name in it do the same (`composeWith_wiring`).

Levels that ignore the whole grammar can be composed in two goes. The two grammars have the same
parser, but define other names. These are new, so no parser in the grammars is about them
(`Avoids`), and a run cannot tell the grammars apart (`run_of_avoids`).
-/

namespace Precedence

variable {ν τ α : Type} {ε : Type} {m : Type → Type}

namespace Parser

/-- None of the names is that of a forward parser inside the parser. -/
def Avoids (names : List ν) : {α : Type} → Parser ν τ m α → Prop
  | _, .reserved _ _ => True
  | _, .tag _ => True
  | _, .fail _ => True
  | _, .forward name => name ∉ names
  | _, .phrase p => Avoids names p
  | _, .process p _ => Avoids names p
  | _, .seq p q => Avoids names p ∧ Avoids names q
  | _, .orElse p q => Avoids names p ∧ Avoids names q
  | _, .rep p => Avoids names p
  | _, .leftRec p q _ => Avoids names p ∧ Avoids names q

variable [Monad m] [MonadExcept (Fault ε) m]
variable {names : List ν}
variable {p : Parser ν τ m α}

/-- A run is not changed by what calls of names do that the parser avoids. -/
theorem runWith_of_avoids
    {call call' : ν → Reader → m (Result τ)}
    (same : ∀ name, name ∉ names → call' name = call name)
    (avoids : p.Avoids names) :
    runWith call' p = runWith call p := by
  induction p with
  | reserved tag text => rfl
  | tag tag => rfl
  | fail message => rfl
  | forward name =>
      funext reader
      rw [runWith, runWith, same name avoids]
  | phrase p ih =>
      funext reader
      rw [runWith, runWith, ih avoids]
  | process p action ih =>
      funext reader
      rw [runWith, runWith, ih avoids]
  | seq p q ihLeft ihRight =>
      funext reader
      rw [runWith, runWith, ihLeft avoids.1, ihRight avoids.2]
  | orElse p q ihLeft ihRight =>
      funext reader
      rw [runWith, runWith, ihLeft avoids.1, ihRight avoids.2]
  | rep p ih =>
      funext reader
      rw [runWith, runWith, ih avoids]
  | leftRec p q combine ihLeft ihRight =>
      funext reader
      rw [runWith, runWith, ihLeft avoids.1, ihRight avoids.2]

/-- The parsers that are defined avoid the names, except perhaps those of the names. -/
def BodiesAvoid (names : List ν) (definitions : Definitions ν τ m) : Prop :=
  ∀ name body, name ∉ names → definitions name = some body → body.Avoids names

section Definitions

variable {definitions definitions' : Definitions ν τ m}
variable (same : ∀ name, name ∉ names → definitions' name = definitions name)
variable (bodies : BodiesAvoid names definitions)

include same bodies

theorem callForward_of_avoids
    (limit : Nat)
    {name : ν}
    (other : name ∉ names) :
    (callForward definitions' limit name : Reader → m (Result τ)) =
      callForward definitions limit name := by
  induction limit generalizing name with
  | zero =>
      funext reader
      rw [callForward, callForward, same name other]
  | succ limit ih =>
      funext reader
      rw [callForward, callForward, same name other]
      cases defined : definitions name with
      | none => rfl
      | some body =>
          have agrees := runWith_of_avoids (fun name => ih) (bodies name body other defined)
          exact congrFun agrees reader

/-- Definitions of names that are avoided by all others make no difference to a run. -/
theorem run_of_avoids
    (avoids : p.Avoids names)
    (limit : Nat)
    (reader : Reader) :
    run definitions' limit p reader = run definitions limit p reader :=
  congrFun (runWith_of_avoids (fun _ => callForward_of_avoids same bodies limit) avoids) reader

end Definitions

end Parser

namespace Level

open Precedence.Parser

section Chain

variable {top top' : Parser ν τ m τ}
variable {bottom next built : Candidate ν τ m}
variable {creator : Creator ν τ ε m}
variable {creators front back : List (Creator ν τ ε m)}
variable {fault : Fault ε}

/-- Called from the last to the first, each with what the one behind it built, all build. -/
inductive Wires (top : Parser ν τ m τ) (bottom : Candidate ν τ m) :
    List (Creator ν τ ε m) → Candidate ν τ m → Prop
  | nil : Wires top bottom [] bottom
  | cons
      {creator : Creator ν τ ε m}
      {creators : List (Creator ν τ ε m)}
      {next : Candidate ν τ m}
      {parser : Parser ν τ m τ}
      (behind : Wires top bottom creators next)
      (builds : creator top next = .ok (some parser)) :
      Wires top bottom (creator :: creators) (some parser)

/-- The creator raises the fault, or builds no parser, which is a fault, too. -/
inductive Refuses (creator : Creator ν τ ε m) (top : Parser ν τ m τ)
    (next : Candidate ν τ m) : Fault ε → Prop
  | raises
      {fault : Fault ε}
      (raised : creator top next = .error fault) :
      Refuses creator top next fault
  | noParser
      (nothing : creator top next = .ok none) :
      Refuses creator top next .levelWithoutParser

theorem create_of_builds
    {parser : Parser ν τ m τ}
    (builds : creator top next = .ok (some parser)) :
    create creator top next = .ok (some parser) := by
  rw [create, builds]
  rfl

theorem Refuses.create_eq
    (refuses : Refuses creator top next fault) :
    create creator top next = .error fault := by
  cases refuses with
  | raises raised =>
      rw [create, raised]
      rfl
  | noParser nothing =>
      rw [create, nothing]
      rfl

/-- The places of all creators are called, the last one first. -/
theorem Wires.chain_eq
    (wires : Wires top bottom creators built)
    (place : Nat) :
    chain top bottom place creators =
      ((List.range' place creators.length).reverse, .ok built) := by
  induction wires generalizing place with
  | nil => rfl
  | cons behind builds ih =>
      rw [chain, ih, List.length_cons, List.range'_succ, List.reverse_cons]
      simp only [create_of_builds builds]

/-- A creator that refuses is the last one to be called. -/
theorem Refuses.chain_eq
    (wires : Wires top bottom back next)
    (refuses : Refuses creator top next fault)
    (front : List (Creator ν τ ε m))
    (place : Nat) :
    chain top bottom place (front ++ creator :: back) =
      ((List.range' (place + front.length) (back.length + 1)).reverse, .error fault) := by
  induction front generalizing place with
  | nil =>
      rw [List.nil_append, chain, wires.chain_eq, List.range'_succ, List.reverse_cons]
      simp only [refuses.create_eq]
      rfl
  | cons first front ih =>
      have shifted : place + 1 + front.length = place + (first :: front).length := by
        rw [List.length_cons]
        omega
      rw [List.cons_append, chain, ih, shifted]

/-- Either all creators build, or a last one of them refuses. -/
theorem wires_or_refuses
    (top : Parser ν τ m τ)
    (bottom : Candidate ν τ m)
    (creators : List (Creator ν τ ε m)) :
    (∃ built, Wires top bottom creators built) ∨
    ∃ front creator back next fault,
      creators = front ++ creator :: back ∧ Wires top bottom back next ∧
      Refuses creator top next fault := by
  induction creators with
  | nil => exact .inl ⟨bottom, .nil⟩
  | cons creator creators ih =>
      rcases ih with ⟨next, behind⟩ | ⟨front, other, back, next, fault, rfl, wires, refuses⟩
      · cases outcome : creator top next with
        | error fault =>
            exact .inr ⟨[], creator, creators, next, fault, rfl, behind, .raises outcome⟩
        | ok candidate =>
            cases candidate with
            | none => exact .inr ⟨[], creator, creators, next, _, rfl, behind, .noParser outcome⟩
            | some parser => exact .inl ⟨some parser, .cons behind outcome⟩
      · exact .inr ⟨creator :: front, other, back, next, fault, rfl, wires, refuses⟩

theorem Wires.append
    (behind : Wires top bottom back next)
    (wires : Wires top next front built) :
    Wires top bottom (front ++ back) built := by
  induction wires with
  | nil => exact behind
  | cons _ builds ih => exact .cons ih builds

end Chain

section Composition

variable [DecidableEq ν]
variable {definitions : Definitions ν τ m}
variable {top : ν}
variable {bottom : Candidate ν τ m}
variable {creators : List (Creator ν τ ε m)}

/-- The definitions with one more. -/
def withTop (definitions : Definitions ν τ m) (top : ν) (parser : Parser ν τ m τ) :
    Definitions ν τ m :=
  fun name => if name = top then some parser else definitions name

/-- How a composition ends, with the places of the creators in the order of their calls. -/
inductive Composition (definitions : Definitions ν τ m) (top : ν) (bottom : Candidate ν τ m)
    (creators : List (Creator ν τ ε m)) : List Nat × Except (Fault ε) (Grammar ν τ m) → Prop
  | grammar
      {start : Parser ν τ m τ}
      (wires : Wires (.forward top) bottom creators (some start)) :
      Composition definitions top bottom creators
        ((List.range creators.length).reverse, .ok ⟨start, withTop definitions top start⟩)
  | nothing
      (empty : creators = [])
      (none : bottom = none) :
      Composition definitions top bottom creators ([], .error .notAParser)
  | refused
      {front back : List (Creator ν τ ε m)}
      {creator : Creator ν τ ε m}
      {next : Candidate ν τ m}
      {fault : Fault ε}
      (parts : creators = front ++ creator :: back)
      (wires : Wires (.forward top) bottom back next)
      (refuses : Refuses creator (.forward top) next fault) :
      Composition definitions top bottom creators
        ((List.range' front.length (back.length + 1)).reverse, .error fault)

theorem withTop_of_ne
    {other : ν}
    (different : other ≠ top)
    (parser : Parser ν τ m τ) :
    withTop definitions top parser other = definitions other :=
  if_neg different

theorem define_of_fresh
    (fresh : definitions.isDefined top = false)
    (parser : Parser ν τ m τ) :
    (definitions.define top (some parser) : Except (Fault ε) _) =
      .ok (withTop definitions top parser) := by
  unfold Definitions.define
  simp only [fresh]
  rfl

/-- What a composition may be is what it is. -/
theorem Composition.composeWith_eq
    {outcome : List Nat × Except (Fault ε) (Grammar ν τ m)}
    (fresh : definitions.isDefined top = false)
    (composition : Composition definitions top bottom creators outcome) :
    composeWith definitions top bottom creators = outcome := by
  cases composition with
  | @grammar start wires =>
      rw [composeWith, wires.chain_eq, ← List.range_eq_range']
      change (_, definitions.define top (some start) >>= _) = _
      rw [define_of_fresh fresh]
      rfl
  | nothing empty none =>
      subst empty none
      rfl
  | refused parts wires refuses =>
      subst parts
      rw [composeWith, refuses.chain_eq wires, Nat.zero_add]
      rfl

/-- Every composition ends in one of these ways. -/
theorem exists_composition
    (definitions : Definitions ν τ m)
    (top : ν)
    (bottom : Candidate ν τ m)
    (creators : List (Creator ν τ ε m)) :
    ∃ outcome, Composition definitions top bottom creators outcome := by
  rcases wires_or_refuses (.forward top) bottom creators with
    ⟨built, wires⟩ | ⟨front, creator, back, next, fault, parts, wires, refuses⟩
  · cases built with
    | some start => exact ⟨_, .grammar wires⟩
    | none =>
        cases wires
        exact ⟨_, .nothing rfl rfl⟩
  · exact ⟨_, .refused parts wires refuses⟩

/-- A name that is defined last stands for its parser, and costs a call. -/
theorem run_forward_top
    [Monad m]
    [MonadExcept (Fault ε) m]
    (definitions : Definitions ν τ m)
    (top : ν)
    (start : Parser ν τ m τ)
    (limit : Nat)
    (reader : Reader) :
    run (withTop definitions top start) (limit + 1) (.forward top) reader =
      run (withTop definitions top start) limit start reader := by
  rw [run, runWith, callForward]
  simp only [withTop, if_true]
  rfl

end Composition

section Stages

/-- The level has nothing from the whole grammar, and no name but from the tighter levels. -/
structure Ignores (names : List ν) (creator : Creator ν τ ε m) : Prop where
  same : ∀ top top' next, creator top next = creator top' next
  avoids : ∀ top next parser, (∀ tighter ∈ next, tighter.Avoids names) →
    creator top next = .ok (some parser) → parser.Avoids names

theorem ofNext_ignores
    {names : List ν}
    {build : Parser ν τ m τ → Parser ν τ m τ}
    (avoids : ∀ {tighter}, tighter.Avoids names → (build tighter).Avoids names) :
    Ignores names (ofNext build : Creator ν τ ε m) := by
  refine ⟨fun _ _ _ => rfl, fun top next parser ofNext builds => ?_⟩
  cases next with
  | none => cases builds
  | some tighter =>
      cases builds
      exact avoids (ofNext tighter rfl)

variable {names : List ν}
variable {top top' : Parser ν τ m τ}
variable {bottom next built : Candidate ν τ m}
variable {creator : Creator ν τ ε m}
variable {creators front back : List (Creator ν τ ε m)}
variable {fault : Fault ε}

theorem Refuses.of_ignores
    (ignores : Ignores names creator)
    (refuses : Refuses creator top next fault) :
    Refuses creator top' next fault := by
  cases refuses with
  | raises raised => exact .raises ((ignores.same top' top next).trans raised)
  | noParser nothing => exact .noParser ((ignores.same top' top next).trans nothing)

theorem Wires.of_ignores
    (ignores : ∀ creator ∈ creators, Ignores names creator)
    (wires : Wires top bottom creators built) :
    Wires top' bottom creators built := by
  induction wires with
  | nil => exact .nil
  | @cons creator creators next parser behind builds ih =>
      obtain ⟨first, others⟩ := List.forall_mem_cons.mp ignores
      exact .cons (ih others) ((first.same top' top next).trans builds)

/-- Names that are new to what levels are built on are new to the levels. -/
theorem Wires.avoids
    (ignores : ∀ creator ∈ creators, Ignores names creator)
    (innermost : ∀ parser ∈ bottom, parser.Avoids names)
    (wires : Wires top bottom creators built) :
    ∀ parser ∈ built, parser.Avoids names := by
  induction wires with
  | nil => exact innermost
  | @cons creator creators next parser behind builds ih =>
      obtain ⟨first, others⟩ := List.forall_mem_cons.mp ignores
      rintro _ ⟨⟩
      exact first.avoids top next parser (ih others) builds

variable [Monad m] [MonadExcept (Fault ε) m] [DecidableEq ν]
variable {definitions : Definitions ν τ m}
variable {name inner outer : ν}

/-- Two compositions end with the same fault, or in grammars that no reader tells apart. -/
inductive Agree : Except (Fault ε) (Grammar ν τ m) → Except (Fault ε) (Grammar ν τ m) → Prop
  | faults
      {fault : Fault ε} :
      Agree (.error fault) (.error fault)
  | grammars
      {left right : Grammar ν τ m}
      (start : left.start = right.start)
      (runs : ∀ limit reader, left.run limit reader = right.run limit reader) :
      Agree (.ok left) (.ok right)

/-- The grammar of some levels on the grammar of others, each with a name of its own. -/
def composeOnto (definitions : Definitions ν τ m) (inner outer : ν) (bottom : Candidate ν τ m)
    (front back : List (Creator ν τ ε m)) : Except (Fault ε) (Grammar ν τ m) := do
  let tighter ← (composeWith definitions inner bottom back).2
  (composeWith tighter.definitions outer (some tighter.start) front).2

/-- Levels that ignore the whole grammar, and names that are new to all there is. -/
structure Separate (definitions : Definitions ν τ m) (name inner outer : ν)
    (bottom : Candidate ν τ m) (creators : List (Creator ν τ ε m)) : Prop where
  distinct : inner ≠ outer
  innerFresh : definitions.isDefined inner = false
  outerFresh : definitions.isDefined outer = false
  bodies : BodiesAvoid [name, inner, outer] definitions
  bottom : ∀ parser ∈ bottom, parser.Avoids [name, inner, outer]
  creators : ∀ creator ∈ creators, Ignores [name, inner, outer] creator

/-- A parser that avoids all three names runs alike under either of the definitions. -/
theorem Separate.run_eq
    (separate : Separate definitions name inner outer bottom creators)
    {start : Parser ν τ m τ}
    (avoids : start.Avoids [name, inner, outer])
    (tighter : Parser ν τ m τ)
    (limit : Nat)
    (reader : Reader) :
    run (withTop definitions name start) limit start reader =
      run (withTop (withTop definitions inner tighter) outer start) limit start reader := by
  calc run (withTop definitions name start) limit start reader
      = run definitions limit start reader := by
        refine run_of_avoids (fun other absent => ?_) separate.bodies avoids limit reader
        simp only [List.mem_cons, List.not_mem_nil, or_false, not_or] at absent
        exact withTop_of_ne absent.1 start
    _ = run (withTop (withTop definitions inner tighter) outer start) limit start reader := by
        refine (run_of_avoids (fun other absent => ?_) separate.bodies avoids limit reader).symm
        simp only [List.mem_cons, List.not_mem_nil, or_false, not_or] at absent
        rw [withTop_of_ne absent.2.2, withTop_of_ne absent.2.1]

/-- What is composed in two goes is what is composed in one. -/
theorem composeOnto_agrees
    (fresh : definitions.isDefined name = false)
    (separate : Separate definitions name inner outer bottom (front ++ back)) :
    back = [] ∧ bottom = none ∧
        composeOnto definitions inner outer bottom front back = .error .notAParser ∨
      Agree (composeWith definitions name bottom (front ++ back)).2
        (composeOnto definitions inner outer bottom front back) := by
  obtain ⟨ofFront, ofBack⟩ := List.forall_mem_append.mp separate.creators
  obtain ⟨outcome, tighter⟩ := exists_composition definitions inner bottom back
  have composed := tighter.composeWith_eq separate.innerFresh
  unfold composeOnto
  rw [composed]
  cases tighter with
  | nothing empty none => exact .inl ⟨empty, none, rfl⟩
  | @refused outermost behind creator next fault parts wires refuses =>
      -- The levels in front are not called in either case.
      refine .inr ?_
      have refused : Composition definitions name bottom (front ++ back) (_, .error fault) :=
        .refused (by rw [parts, List.append_assoc])
          (wires.of_ignores fun other there => ofBack other (by simp [parts, there]))
          (refuses.of_ignores (ofBack creator (by simp [parts])))
      rw [refused.composeWith_eq fresh]
      exact .faults
  | @grammar start wires =>
      refine .inr ?_
      have outerFresh : (withTop definitions inner start).isDefined outer = false := by
        rw [Definitions.isDefined, withTop_of_ne separate.distinct.symm]
        exact separate.outerFresh
      obtain ⟨outcome, looser⟩ :=
        exists_composition (withTop definitions inner start) outer (some start) front
      have composed := looser.composeWith_eq outerFresh
      change Agree _ (composeWith (withTop definitions inner start) outer (some start) front).2
      rw [composed]
      have wires : Wires (.forward name) bottom back (some start) := wires.of_ignores ofBack
      cases looser with
      | nothing empty none => cases none
      | @refused outermost behind creator next fault parts wiresOn refuses =>
          -- The levels behind the one that refuses are now those of both goes.
          have refused : Composition definitions name bottom (front ++ back) (_, .error fault) :=
            .refused (by rw [parts, List.append_assoc, List.cons_append])
              (wires.append
                (wiresOn.of_ignores fun other there => ofFront other (by simp [parts, there])))
              (refuses.of_ignores (ofFront creator (by simp [parts])))
          rw [refused.composeWith_eq fresh]
          exact .faults
      | @grammar whole wiresOn =>
          have all := wires.append (wiresOn.of_ignores ofFront)
          have grammar : Composition definitions name bottom (front ++ back) _ := .grammar all
          rw [grammar.composeWith_eq fresh]
          have avoids := all.avoids separate.creators separate.bottom whole rfl
          exact .grammars rfl fun limit reader => separate.run_eq avoids start limit reader

end Stages

section Composed

variable [Monad m] [MonadExcept (Fault ε) m] [DecidableEq ν]

/--
While levels are composed, the name of the whole grammar is undefined. Creators are called from
the last to the first and not again, each with what the one behind it built, until one refuses;
if none does, the grammar is what the first one built, and the name stands for it. Levels that
ignore the whole grammar may as well be composed in two goes.
-/
theorem composeWith_wiring
    (definitions : Definitions ν τ m)
    (top : ν)
    (bottom : Candidate ν τ m)
    (creators : List (Creator ν τ ε m))
    (fresh : definitions.isDefined top = false) :
    (∀ limit reader, run definitions limit (.forward top) reader =
      throw (Fault.undefinedForward : Fault ε)) ∧
    (∀ outcome, composeWith definitions top bottom creators = outcome ↔
      Composition definitions top bottom creators outcome) ∧
    (∀ wording, (Fault.levelWithoutParser : Fault ε).message wording =
      "level creator did not return a parser") ∧
    (∀ called grammar, composeWith definitions top bottom creators = (called, .ok grammar) →
      grammar.definitions top = some grammar.start ∧
      ∀ limit reader, run grammar.definitions (limit + 1) (.forward top) reader =
        grammar.run limit reader) ∧
    ∀ inner outer front back, creators = front ++ back →
      Separate definitions top inner outer bottom creators →
      back = [] ∧ bottom = none ∧
          composeOnto definitions inner outer bottom front back = .error .notAParser ∨
        Agree (composeWith definitions top bottom creators).2
          (composeOnto definitions inner outer bottom front back) := by
  have undefined : definitions top = none := by
    simpa [Definitions.isDefined] using fresh
  have ends : ∀ outcome, composeWith definitions top bottom creators = outcome ↔
      Composition definitions top bottom creators outcome := by
    intro outcome
    constructor
    · rintro rfl
      obtain ⟨other, composition⟩ := exists_composition definitions top bottom creators
      rwa [composition.composeWith_eq fresh]
    · exact fun composition => composition.composeWith_eq fresh
  refine ⟨fun limit reader => ?_, ends, fun _ => rfl, fun called grammar composed => ?_, ?_⟩
  · rw [run, runWith]
    cases limit <;> rw [callForward, undefined]
  · cases (ends _).mp composed with
    | grammar wires => exact ⟨if_pos rfl, run_forward_top definitions top _⟩
  · rintro inner outer front back rfl separate
    exact composeOnto_agrees fresh separate

/-- Sums of integers in one go and in two, under three names. -/
theorem composeWith_wiring_sum :
    let pair (left right : String) : Except (Fault Empty) String := .ok (left ++ "+" ++ right)
    let sum : Creator Nat String Empty (Except (Fault Empty)) :=
      leftAssociative (.reserved Tag.operator "+") pair
    let integer : Creator Nat String Empty (Except (Fault Empty)) := orNext (.tag Tag.integer)
    Definitions.empty.isDefined (m := Except (Fault Empty)) (τ := String) 0 = false ∧
    ∃ grammar,
      composeWith .empty 0 (some (.fail "no operand")) [sum, integer] = ([1, 0], .ok grammar) ∧
      (∀ limit reader, run grammar.definitions (limit + 1) (.forward 0) reader =
        grammar.run limit reader) ∧
      Agree (.ok grammar) (composeOnto .empty 1 2 (some (.fail "no operand")) [sum] [integer]) := by
  intro pair sum integer
  obtain ⟨-, ends, -, stands, twice⟩ :=
    composeWith_wiring (m := Except (Fault Empty)) .empty 0 (some (.fail "no operand"))
      [sum, integer] rfl
  have composed := (ends _).mpr (.grammar (.cons (.cons .nil rfl) rfl))
  refine ⟨rfl, _, composed, (stands _ _ composed).2, ?_⟩
  have separate : Separate (ε := Empty) .empty 0 1 2 (some (.fail "no operand"))
      [sum, integer] := by
    refine ⟨by decide, rfl, rfl, fun _ _ _ => nofun, ?_, ?_⟩
    · rintro _ ⟨⟩
      trivial
    · simp only [List.forall_mem_cons]
      exact ⟨ofNext_ignores fun avoids => ⟨avoids, trivial, avoids⟩,
        ofNext_ignores fun avoids => ⟨trivial, avoids⟩, by simp⟩
  rcases twice 1 2 [sum] [integer] rfl separate with ⟨empty, _⟩ | agree
  · cases empty
  · rwa [composed] at agree

end Composed

end Level
end Precedence
