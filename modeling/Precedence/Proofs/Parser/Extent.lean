import Mathlib
import Precedence.Proofs.Parser.Confinement
import Precedence.Proofs.Token.Placement

/-!
# What the location of a match covers

The location of a match begins where the first token of the match begins. It ends where the
last one ends, with one exception: a repetition that matches nothing stands at the token behind
it, and a sequence that ends in such a repetition covers this token, too, although it is not
part of the match. `Snug` parsers have no such end, so their locations are exact.

Locations are compared by the places of the tokens at which they begin and end. Covering two
locations takes the lesser place to begin and the greater one to end (`InOrder.combine?_spans`),
so what remains of the argument is about numbers (`Reach`).
-/

namespace Precedence

/-- The location from the beginning of one token to the end of another, given by their places. -/
def SpansTokens (file : String) (tokens : List Token) (first last : Nat)
    (location : Location) : Prop :=
  ∃ front back,
    tokens[first]? = some front ∧ tokens[last]? = some back ∧
    location = .ofPositions file front.start back.stop

namespace InOrder

variable {file : String}
variable {tokens : List Token}
variable {token token' : Token}
variable {first last first' last' : Nat}
variable {here there : Location}

theorem le_of_place_lt
    (inOrder : InOrder file tokens)
    (isToken : tokens[first]? = some token)
    (isToken' : tokens[last]? = some token')
    (before : first < last) :
    token.stop ≤ token'.start := by
  obtain ⟨inside, rfl⟩ := List.getElem?_eq_some_iff.mp isToken
  obtain ⟨inside', rfl⟩ := List.getElem?_eq_some_iff.mp isToken'
  exact List.pairwise_iff_getElem.mp inOrder.ordered first last inside inside' before

theorem start_le_stop
    (inOrder : InOrder file tokens)
    (isToken : tokens[first]? = some token) :
    token.start ≤ token.stop :=
  (inOrder.located token (List.mem_of_getElem? isToken)).2

/-- Tokens begin and end in the order of their places. -/
theorem le_of_place_le
    (inOrder : InOrder file tokens)
    (isToken : tokens[first]? = some token)
    (isToken' : tokens[last]? = some token')
    (notBehind : first ≤ last) :
    token.start ≤ token'.start ∧ token.stop ≤ token'.stop := by
  rcases Nat.eq_or_lt_of_le notBehind with rfl | before
  · cases isToken.symm.trans isToken'
    exact ⟨le_refl _, le_refl _⟩
  · have apart := inOrder.le_of_place_lt isToken isToken' before
    exact ⟨(inOrder.start_le_stop isToken).trans apart,
      apart.trans (inOrder.start_le_stop isToken')⟩

/-- Two locations are covered from the lesser place to the greater one. -/
theorem combine?_spans
    (inOrder : InOrder file tokens)
    (spans : SpansTokens file tokens first last here)
    (spans' : SpansTokens file tokens first' last' there) :
    ∃ whole,
      here.combine? there = some whole ∧
      SpansTokens file tokens (min first first') (max last last') whole := by
  obtain ⟨front, back, isFront, isBack, rfl⟩ := spans
  obtain ⟨front', back', isFront', isBack', rfl⟩ := spans'
  have starts : ∃ token, tokens[min first first']? = some token ∧
      token.start = min front.start front'.start := by
    rcases Nat.le_total first first' with le | le
    · rw [Nat.min_eq_left le, min_eq_left (inOrder.le_of_place_le isFront isFront' le).1]
      exact ⟨front, isFront, rfl⟩
    · rw [Nat.min_eq_right le, min_eq_right (inOrder.le_of_place_le isFront' isFront le).1]
      exact ⟨front', isFront', rfl⟩
  have stops : ∃ token, tokens[max last last']? = some token ∧
      token.stop = max back.stop back'.stop := by
    rcases Nat.le_total last last' with le | le
    · rw [Nat.max_eq_right le, max_eq_right (inOrder.le_of_place_le isBack isBack' le).2]
      exact ⟨back', isBack', rfl⟩
    · rw [Nat.max_eq_left le, max_eq_left (inOrder.le_of_place_le isBack' isBack le).2]
      exact ⟨back, isBack, rfl⟩
  obtain ⟨start, isStart, begins⟩ := starts
  obtain ⟨stop, isStop, ends⟩ := stops
  refine ⟨_, ?_, start, stop, isStart, isStop, rfl⟩
  rw [begins, ends]
  simp [Location.combine?, Location.ofPositions, Location.fileName, Location.span]

/-- The location of a reader is that of the token it stands at, or of the last token. -/
theorem spans_location
    {reader : Reader}
    (inOrder : InOrder file reader.tokens)
    (nonempty : reader.tokens ≠ []) :
    SpansTokens file reader.tokens (min reader.pos (reader.tokens.length - 1))
      (min reader.pos (reader.tokens.length - 1)) reader.location := by
  have spans : ∀ {place : Nat} {token : Token}, reader.tokens[place]? = some token →
      SpansTokens file reader.tokens place place token.location := by
    intro place token isToken
    exact ⟨token, token, isToken, isToken,
      (inOrder.located token (List.mem_of_getElem? isToken)).1⟩
  obtain ⟨fileName, consumed, rest⟩ := reader
  simp only [Reader.tokens, Reader.pos, Reader.location] at spans nonempty ⊢
  cases rest with
  | cons token rest =>
      have place : min consumed.length ((consumed.reverse ++ token :: rest).length - 1) =
          consumed.length := by
        simp
      rw [place]
      exact spans (by simp)
  | nil =>
      cases consumed with
      | nil => exact absurd rfl nonempty
      | cons token consumed =>
          have place : min (token :: consumed).length
              (((token :: consumed).reverse ++ []).length - 1) = consumed.length := by
            simp
          rw [place]
          exact spans (by simp)

end InOrder

/--
How far a match from one place to another one goes in so many tokens. One of nothing stands at
the token behind it, or at the last one. Any other begins where it begins; if it is not snug it
may go one token too far.
-/
structure Reach (snug : Prop) (start stop count first last : Nat) : Prop where
  nothing : start = stop → first = min start (count - 1) ∧ last = first
  something : start < stop → first = start ∧ (last + 1 = stop ∨ ¬ snug ∧ last = stop)

namespace Reach

variable {snug snug' tight : Prop}
variable {start middle stop count first last first' last' : Nat}

theorem mono
    (reach : Reach snug start stop count first last)
    (weaker : tight → snug) :
    Reach tight start stop count first last := by
  refine ⟨reach.nothing, fun some => ?_⟩
  obtain ⟨begins, ends | ⟨loose, ends⟩⟩ := reach.something some
  · exact ⟨begins, .inl ends⟩
  · exact ⟨begins, .inr ⟨fun isTight => loose (weaker isTight), ends⟩⟩

/-- At the end of the tokens there is none to go too far. -/
theorem of_end
    (reach : Reach snug start stop count first last)
    (inside : last < count)
    (atEnd : count ≤ stop) :
    Reach tight start stop count first last := by
  refine ⟨reach.nothing, fun some => ?_⟩
  obtain ⟨begins, ends | ⟨_, ends⟩⟩ := reach.something some
  · exact ⟨begins, .inl ends⟩
  · omega

/-- One match behind another: only what the second one adds can be left out again. -/
theorem trans
    (first_reach : Reach snug start middle count first last)
    (second_reach : Reach snug' middle stop count first' last')
    (inside : last < count)
    (forth : start ≤ middle)
    (further : middle ≤ stop)
    (within : stop ≤ count)
    (tightens : tight → snug' ∧ middle < stop) :
    Reach tight start stop count (min first first') (max last last') := by
  rcases Nat.eq_or_lt_of_le forth with rfl | some
  · obtain ⟨begins, ends⟩ := first_reach.nothing rfl
    rcases Nat.eq_or_lt_of_le further with rfl | more
    · obtain ⟨begins', ends'⟩ := second_reach.nothing rfl
      exact ⟨fun _ => by omega, fun some => absurd some (Nat.lt_irrefl _)⟩
    · obtain ⟨begins', ends' | ⟨loose, ends'⟩⟩ := second_reach.something more
      · exact ⟨fun none => by omega, fun _ => ⟨by omega, .inl (by omega)⟩⟩
      · exact ⟨fun none => by omega, fun _ =>
          ⟨by omega, .inr ⟨fun isTight => loose (tightens isTight).1, by omega⟩⟩⟩
  · obtain ⟨begins, ends⟩ := first_reach.something some
    refine ⟨fun none => by omega, fun _ => ?_⟩
    rcases Nat.eq_or_lt_of_le further with rfl | more
    · obtain ⟨begins', ends'⟩ := second_reach.nothing rfl
      refine ⟨by omega, ?_⟩
      by_cases atEnd : middle = count
      · exact .inl (by omega)
      · refine .inr ⟨fun isTight => Nat.lt_irrefl _ (tightens isTight).2, ?_⟩
        omega
    · obtain ⟨begins', ends' | ⟨loose, ends'⟩⟩ := second_reach.something more
      · exact ⟨by omega, .inl (by omega)⟩
      · exact ⟨by omega, .inr ⟨fun isTight => loose (tightens isTight).1, by omega⟩⟩

end Reach

/-- The second reader is in the tokens of the first one, behind a match with the location. -/
structure Matched (file : String) (snug : Prop) (reader next : Reader) (location : Location) :
    Prop where
  same : next.tokens = reader.tokens
  forth : reader.pos ≤ next.pos
  extent : ∃ first last,
    SpansTokens file reader.tokens first last location ∧
    Reach snug reader.pos next.pos reader.tokens.length first last

theorem SpansTokens.lt
    {file : String}
    {tokens : List Token}
    {first last : Nat}
    {location : Location}
    (spans : SpansTokens file tokens first last location) :
    last < tokens.length := by
  obtain ⟨_, _, _, isBack, _⟩ := spans
  exact (List.getElem?_eq_some_iff.mp isBack).1

namespace Matched

variable {file : String}
variable {snug snug' tight : Prop}
variable {reader middle next : Reader}
variable {here there : Location}

theorem mono
    (isMatch : Matched file snug reader next here)
    (weaker : tight → snug) :
    Matched file tight reader next here := by
  obtain ⟨same, forth, first, last, spans, reach⟩ := isMatch
  exact ⟨same, forth, first, last, spans, reach.mono weaker⟩

/-- Nothing is matched where a reader stands. -/
theorem nothing
    (inOrder : InOrder file reader.tokens)
    (nonempty : reader.tokens ≠ []) :
    Matched file snug reader reader reader.location := by
  refine ⟨rfl, le_refl _, _, _, inOrder.spans_location nonempty, fun _ => ⟨rfl, rfl⟩, ?_⟩
  intro some
  exact absurd some (Nat.lt_irrefl _)

/-- One token is matched where it stands. -/
theorem single
    {token : Token}
    (inOrder : InOrder file reader.tokens)
    (moved : reader.next? = some (token, next)) :
    Matched file snug reader next token.location := by
  obtain ⟨same, _, remaining⟩ := Reader.tokens_of_next? moved
  have ahead := (Reader.Passes.of_next? moved).pos_eq
  have isToken : reader.tokens[reader.pos]? = some token := by
    simp [Reader.tokens, Reader.pos, remaining]
  rw [List.length_singleton] at ahead
  refine ⟨same, by omega, reader.pos, reader.pos, ⟨token, token, isToken, isToken, ?_⟩, ?_⟩
  · exact (inOrder.located token (List.mem_of_getElem? isToken)).1
  · exact ⟨fun none => by omega, fun _ => ⟨rfl, .inl (by omega)⟩⟩

/-- A match that reaches the end of the tokens does not go too far. -/
theorem of_end
    (isMatch : Matched file snug reader next here)
    (atEnd : next.isEmpty = true) :
    Matched file tight reader next here := by
  obtain ⟨same, forth, first, last, spans, reach⟩ := isMatch
  have all : reader.tokens.length ≤ next.pos := by
    rw [← same]
    simp [Reader.tokens, Reader.pos, List.isEmpty_iff.mp atEnd]
  exact ⟨same, forth, first, last, spans, reach.of_end spans.lt all⟩

/-- The locations of two matches, one behind the other, are covered by that of both. -/
theorem trans
    (inOrder : InOrder file reader.tokens)
    (first : Matched file snug reader middle here)
    (second : Matched file snug' middle next there)
    (tightens : tight → snug' ∧ middle.pos < next.pos) :
    ∃ whole, here.combine? there = some whole ∧ Matched file tight reader next whole := by
  obtain ⟨same, forth, _, _, spans, reach⟩ := first
  obtain ⟨same', forth', _, _, spans', reach'⟩ := second
  rw [same] at spans' reach' same'
  have within : next.pos ≤ reader.tokens.length := by
    rw [← same']
    exact next.pos_le
  obtain ⟨whole, covered, wholeSpans⟩ := inOrder.combine?_spans spans spans'
  exact ⟨whole, covered, same', forth.trans forth', _, _, wholeSpans,
    reach.trans reach' spans.lt forth forth' within tightens⟩

end Matched

/-- Behind a match, which is of at least one token if it is solid. -/
def Result.Covers {α : Type} (file : String) (solid snug : Prop) (reader : Reader) :
    Result α → Prop
  | .success location _ next =>
      Matched file snug reader next location ∧ (solid → reader.pos < next.pos)
  | .failure _ _ => True

namespace Parser

variable {ν τ α β : Type}
variable {m : Type → Type}

/-- Whether each match has a token, given which forward parsers have that property. -/
def Solid (solid : ν → Prop) : {α : Type} → Parser ν τ m α → Prop
  | _, .reserved _ _ => True
  | _, .tag _ => True
  | _, .fail _ => True
  | _, .forward name => solid name
  | _, .phrase p => p.Solid solid
  | _, .process p _ => p.Solid solid
  | _, .seq p q => p.Solid solid ∨ q.Solid solid
  | _, .orElse p q => p.Solid solid ∧ q.Solid solid
  | _, .rep _ => False
  | _, .leftRec p _ _ => p.Solid solid

/--
Whether no match ends in a part of no tokens, given which forward parsers have that property.
A phrase has it always, as no token is behind it.
-/
def Snug (solid snug : ν → Prop) : {α : Type} → Parser ν τ m α → Prop
  | _, .reserved _ _ => True
  | _, .tag _ => True
  | _, .fail _ => True
  | _, .forward name => snug name
  | _, .phrase _ => True
  | _, .process p _ => p.Snug solid snug
  | _, .seq _ q => q.Snug solid snug ∧ q.Solid solid
  | _, .orElse p q => p.Snug solid snug ∧ q.Snug solid snug
  | _, .rep p => p.Snug solid snug ∧ p.Solid solid
  | _, .leftRec p q _ => p.Snug solid snug ∧ q.Snug solid snug ∧ q.Solid solid

/-- Forward parsers that are said to be solid or snug, and are so by their definitions. -/
structure Promises (definitions : Definitions ν τ m) where
  solid : ν → Prop
  snug : ν → Prop
  solid_definition : ∀ name p, definitions name = some p → solid name → p.Solid solid
  snug_definition : ∀ name p, definitions name = some p → snug name → p.Snug solid snug

variable {ε : Type}
variable [Monad m] [LawfulMonad m] [MonadAttach m] [LawfulMonadAttach m]
variable [MonadExcept (Fault ε) m]
variable {file : String}
variable {solid snug solid' snug' tight : Prop}
variable {reader middle next : Reader}
variable {here there : Location}

theorem cover_matched
    (inOrder : InOrder file reader.tokens)
    (first : Matched file snug reader middle here)
    (second : Matched file snug' middle next there)
    (tightens : tight → snug' ∧ middle.pos < next.pos) :
    Ensures (cover here there : m Location) (Matched file tight reader next) := by
  obtain ⟨whole, covered, isMatch⟩ := first.trans inOrder second tightens
  unfold cover
  rw [covered]
  exact Ensures.of_pure isMatch

theorem expect_covers
    (inOrder : InOrder file reader.tokens)
    (matching : Token → Bool)
    (expected : String)
    (found : Token → String) :
    (expect matching expected found reader).Covers file True True reader := by
  unfold expect
  split
  · exact True.intro
  · rename_i token next moved
    have ahead := (Reader.Passes.of_next? moved).pos_eq
    split
    · refine ⟨.single inOrder moved, fun _ => ?_⟩
      rw [ahead]
      exact Nat.lt_succ_self _
    · exact True.intro

section Loops

variable [Abrupt ε m]
variable {step : Reader → m (Result β)}

/-- A repetition behind what was matched so far goes on from there. -/
theorem repeatFrom_covers
    (steps : ∀ place, place.tokens = reader.tokens →
      Ensures (step place) (Result.Covers file solid' snug' place))
    (tightens : snug → snug' ∧ solid')
    (inOrder : InOrder file reader.tokens)
    (rounds : List Token)
    {location : Location}
    {place : Reader}
    (soFar : Matched file snug reader place location) :
    Ensures (repeatFrom step rounds location place) (Result.Covers file False snug reader) := by
  induction rounds generalizing location place with
  | nil =>
      rw [repeatFrom]
      refine (steps place soFar.same).bind ?_
      intro result covers
      cases result with
      | failure _ _ =>
          exact Ensures.of_pure ⟨soFar, False.elim⟩
      | success here value next =>
          refine (Ensures.trivial _).bind fun _ _ => ?_
          exact Ensures.of_throw _ _
  | cons round rounds ih =>
      rw [repeatFrom]
      refine (steps place soFar.same).bind ?_
      intro result covers
      cases result with
      | failure _ _ =>
          exact Ensures.of_pure ⟨soFar, False.elim⟩
      | success here value next =>
          obtain ⟨isMatch, ahead⟩ := covers
          have tight : snug → snug' ∧ place.pos < next.pos :=
            fun isSnug => ⟨(tightens isSnug).1, ahead (tightens isSnug).2⟩
          refine (cover_matched inOrder soFar isMatch tight).bind ?_
          intro wider further
          refine onSuccess_ensures (ih further) (fun _ _ _ => True.intro) ?_
          rintro covered values stop ⟨whole, _⟩
          exact Ensures.of_pure ⟨whole, False.elim⟩

/-- Folding behind what was matched so far goes on from there. -/
theorem foldFrom_covers
    (steps : ∀ place, place.tokens = reader.tokens →
      Ensures (step place) (Result.Covers file solid' snug' place))
    (tightens : snug → snug' ∧ solid')
    (inOrder : InOrder file reader.tokens)
    (combine : α → β → Location → m α)
    (rounds : List Token)
    {location : Location}
    {place : Reader}
    (value : α)
    (soFar : Matched file snug reader place location)
    (ahead : solid → reader.pos < place.pos) :
    Ensures (foldFrom step combine rounds location value place)
      (Result.Covers file solid snug reader) := by
  induction rounds generalizing location place value with
  | nil =>
      rw [foldFrom]
      refine (steps place soFar.same).bind ?_
      intro result covers
      cases result with
      | failure _ _ =>
          exact Ensures.of_pure ⟨soFar, ahead⟩
      | success here operand next =>
          refine (Ensures.trivial _).bind fun _ _ => ?_
          refine (Ensures.trivial _).bind fun _ _ => ?_
          exact Ensures.of_throw _ _
  | cons round rounds ih =>
      rw [foldFrom]
      refine (steps place soFar.same).bind ?_
      intro result covers
      cases result with
      | failure _ _ =>
          exact Ensures.of_pure ⟨soFar, ahead⟩
      | success here operand next =>
          obtain ⟨isMatch, consumes⟩ := covers
          have tight : snug → snug' ∧ place.pos < next.pos :=
            fun isSnug => ⟨(tightens isSnug).1, consumes (tightens isSnug).2⟩
          refine (cover_matched inOrder soFar isMatch tight).bind ?_
          intro wider further
          refine (Ensures.trivial _).bind fun folded _ => ?_
          exact ih folded further fun isSolid => (ahead isSolid).trans_le isMatch.forth

end Loops

variable [Abrupt ε m]
variable {tokens : List Token}

/-- What parsers match is covered as they are put together, if it is so for the forward parsers. -/
theorem runWith_covers
    {solid snug : ν → Prop}
    {call : ν → Reader → m (Result τ)}
    (inOrder : InOrder file tokens)
    (nonempty : tokens ≠ [])
    (calls : ∀ name reader, reader.tokens = tokens →
      Ensures (call name reader) (Result.Covers file (solid name) (snug name) reader))
    (p : Parser ν τ m α)
    {reader : Reader}
    (among : reader.tokens = tokens) :
    Ensures (runWith call p reader)
      (Result.Covers file (p.Solid solid) (p.Snug solid snug) reader) := by
  induction p generalizing reader with
  | reserved name text =>
      rw [runWith]
      subst among
      exact Ensures.of_pure (expect_covers inOrder _ _ _)
  | tag name =>
      rw [runWith]
      subst among
      exact Ensures.of_pure (expect_covers inOrder _ _ _)
  | fail message =>
      rw [runWith]
      exact Ensures.of_pure True.intro
  | forward name =>
      rw [runWith]
      exact calls name reader among
  | phrase p ih =>
      rw [runWith]
      refine onSuccess_ensures (ih among) (fun _ _ _ => True.intro) ?_
      rintro location value next ⟨isMatch, ahead⟩
      split
      · rename_i atEnd
        exact Ensures.of_pure ⟨isMatch.of_end atEnd, ahead⟩
      · exact Ensures.of_pure True.intro
  | process p action ih =>
      rw [runWith]
      refine onSuccess_ensures (ih among) (fun _ _ _ => True.intro) ?_
      intro location value next covers
      refine (Ensures.trivial _).bind fun _ _ => ?_
      exact Ensures.of_pure covers
  | seq p q ihLeft ihRight =>
      rw [runWith]
      refine onSuccess_ensures (ihLeft among) (fun _ _ _ => True.intro) ?_
      rintro first left middle ⟨isFirst, ahead⟩
      refine onSuccess_ensures (ihRight (isFirst.same.trans among)) (fun _ _ _ => True.intro) ?_
      rintro second right next ⟨isSecond, further⟩
      subst among
      have tight : q.Snug solid snug ∧ q.Solid solid →
          q.Snug solid snug ∧ middle.pos < next.pos :=
        fun both => ⟨both.1, further both.2⟩
      refine (cover_matched inOrder isFirst isSecond tight).bind ?_
      intro whole isWhole
      refine Ensures.of_pure ⟨isWhole, ?_⟩
      rintro (isSolid | isSolid)
      · exact (ahead isSolid).trans_le isSecond.forth
      · exact isFirst.forth.trans_lt (further isSolid)
  | orElse p q ihLeft ihRight =>
      rw [runWith]
      refine (ihLeft among).bind ?_
      intro result covers
      cases result with
      | success location value next =>
          obtain ⟨isMatch, ahead⟩ := covers
          exact Ensures.of_pure ⟨isMatch.mono And.left, fun both => ahead both.1⟩
      | failure _ _ =>
          intro later returned
          have covers := ihRight among later returned
          cases later with
          | success location value next =>
              obtain ⟨isMatch, ahead⟩ := covers
              exact ⟨isMatch.mono And.right, fun both => ahead both.2⟩
          | failure _ _ => exact True.intro
  | rep p ih =>
      rw [runWith]
      subst among
      exact repeatFrom_covers (fun _ same => ih same) id inOrder _ (.nothing inOrder nonempty)
  | leftRec p q combine ihLeft ihRight =>
      rw [runWith]
      refine onSuccess_ensures (ihLeft among) (fun _ _ _ => True.intro) ?_
      rintro location value next ⟨isMatch, ahead⟩
      subst among
      exact foldFrom_covers (fun _ same => ihRight same) And.right inOrder combine _ value
        (isMatch.mono And.left) ahead

theorem callForward_covers
    {definitions : Definitions ν τ m}
    (promises : Promises definitions)
    (inOrder : InOrder file tokens)
    (nonempty : tokens ≠ [])
    (limit : Nat)
    (name : ν)
    {reader : Reader}
    (among : reader.tokens = tokens) :
    Ensures (callForward definitions limit name reader)
      (Result.Covers file (promises.solid name) (promises.snug name) reader) := by
  induction limit generalizing name reader with
  | zero =>
      unfold callForward
      split
      · exact Ensures.of_throw _ _
      · exact Ensures.of_throw _ _
  | succ limit ih =>
      unfold callForward
      split
      · exact Ensures.of_throw _ _
      · rename_i p defined
        intro result returned
        have covers := runWith_covers inOrder nonempty (fun name _ => ih name) p among result
          returned
        cases result with
        | failure _ _ => exact True.intro
        | success location value next =>
            obtain ⟨isMatch, ahead⟩ := covers
            exact ⟨isMatch.mono (promises.snug_definition name p defined),
              fun isSolid => ahead (promises.solid_definition name p defined isSolid)⟩

section Lexed

variable {definitions : Definitions ν τ m}
variable {text : String}
variable {found : List Token}

/-- Where there are no tokens, none is consumed. -/
theorem run_of_nothing
    {limit : Nat}
    {p : Parser ν τ m α}
    {value : α}
    (none : reader.tokens = [])
    (returned : MonadAttach.CanReturn (run definitions limit p reader)
      (.success here value next)) :
    next.tokens = reader.tokens ∧ ¬ reader.pos < next.pos := by
  have inFile : reader.InFile reader.fileName := by
    refine ⟨?_, fun _ => rfl⟩
    rw [none]
    simp
  obtain ⟨_, front, passes⟩ := run_within definitions limit p inFile _ returned
  have within := next.pos_le
  rw [passes.tokens_eq, none] at within
  rw [List.length_nil] at within
  exact ⟨passes.tokens_eq, by omega⟩

/--
Over the tokens of a text, the location of a match begins where the first token of the match
begins. It ends where the last one ends, unless the parser is not snug: then it may end where
the token behind the match ends.
-/
theorem run_covers
    (promises : Promises definitions)
    (limit : Nat)
    (p : Parser ν τ m α)
    (lexes : Lexer.tokens file text = .ok found)
    (reader : Reader)
    (among : reader.tokens.Sublist found) :
    Ensures (run definitions limit p reader) fun result =>
      ∀ location value next,
        result = .success location value next →
        next.tokens = reader.tokens ∧
        (reader.pos < next.pos →
          ∃ first last,
            reader.tokens[reader.pos]? = some first ∧
            reader.tokens[next.pos - 1]? = some last ∧
            (location = .ofPositions file first.start last.stop ∨
              ¬ p.Snug promises.solid promises.snug ∧
              ∃ behind,
                reader.tokens[next.pos]? = some behind ∧
                location = .ofPositions file first.start behind.stop)) := by
  have inOrder := (Lexer.inOrder_of_tokens lexes).of_sublist among
  rintro _ returned location value next rfl
  by_cases nonempty : reader.tokens = []
  · obtain ⟨same, none⟩ := run_of_nothing nonempty returned
    exact ⟨same, fun consumes => absurd consumes none⟩
  have covers := runWith_covers inOrder nonempty
    (fun name _ => callForward_covers promises inOrder nonempty limit name) p rfl _ returned
  obtain ⟨⟨same, _, first, last, ⟨front, back, isFront, isBack, rfl⟩, reach⟩, _⟩ := covers
  refine ⟨same, fun consumes => ?_⟩
  obtain ⟨rfl, ends | ⟨loose, rfl⟩⟩ := reach.something consumes
  · have place : last = next.pos - 1 := by
      omega
    rw [place] at isBack
    exact ⟨front, back, isFront, isBack, .inl rfl⟩
  · have within : next.pos - 1 < reader.tokens.length := by
      have inside := (List.getElem?_eq_some_iff.mp isBack).1
      omega
    exact ⟨front, _, isFront, List.getElem?_eq_getElem within, .inr ⟨loose, back, isBack, rfl⟩⟩

/-- The sum of `(1)` and `2` in front of a number that is not part of it. -/
theorem run_covers_sum :
    let top : Parser Unit String (Except (Fault Empty)) String := .forward ()
    let group := (((Parser.reserved Tag.reserved "(").keepRight top).keepLeft
      (.reserved Tag.reserved ")")).orElse (.tag Tag.integer)
    let sum := top.leftRec ((Parser.reserved Tag.operator "+").keepRight top)
      fun left right _ => pure (left ++ "+" ++ right)
    let token := fun text tag start => Token.mk text tag
      (.ofPositions "sum" ⟨1, start⟩ ⟨1, start + 1⟩)
    let tokens : List Token :=
      [token "(" Tag.reserved 1, token "1" Tag.integer 2, token ")" Tag.reserved 3,
        token "+" Tag.operator 4, token "2" Tag.integer 5, token " " Tag.space 6,
        token "3" Tag.integer 7]
    Lexer.tokens "sum" "(1)+2 3" = .ok tokens ∧
    ∃ location next,
      run (fun _ => some group) 5 sum (.ofTokens "sum" (tokens.filter Token.isPrintable)) =
        .ok (.success location "1+2" next) ∧
      next.pos = 5 ∧ location = .ofPositions "sum" ⟨1, 1⟩ ⟨1, 6⟩ := by
  intro top group sum token tokens
  have lexes : Lexer.tokens "sum" "(1)+2 3" = .ok tokens := by
    cbv
  let seen := tokens.filter Token.isPrintable
  have ran : run (fun _ => some group) 5 sum (.ofTokens "sum" seen) =
      .ok (.success (.ofPositions "sum" ⟨1, 1⟩ ⟨1, 6⟩) "1+2"
        ⟨"sum", (seen.take 5).reverse, seen.drop 5⟩) := by
    cbv
  let promises : Promises fun _ => some group :=
    ⟨fun _ => True, fun _ => True, by rintro _ _ ⟨⟩ _; exact ⟨.inl (.inl trivial), trivial⟩,
      by rintro _ _ ⟨⟩ _; exact ⟨⟨trivial, trivial⟩, trivial⟩⟩
  refine ⟨lexes, _, _, ran, rfl, ?_⟩
  obtain ⟨_, consumed⟩ :=
    run_covers promises 5 sum lexes (.ofTokens "sum" seen) List.filter_sublist _ ran _ _ _ rfl
  obtain ⟨first, last, isFirst, isLast, located⟩ := consumed (by decide)
  cases isFirst
  cases isLast
  rcases located with exactly | ⟨loose, _⟩
  · exact exactly
  · exact absurd ⟨trivial, ⟨trivial, trivial⟩, .inl trivial⟩ loose

omit [MonadAttach m] [LawfulMonadAttach m] [Abrupt ε m] in
/--
One or more matches with separators between them: if there is only one and a token behind it,
the location ends where this token ends, and not where the match does.
-/
theorem runWith_rep1Sep_reaches
    {call : ν → Reader → m (Result τ)}
    {p : Parser ν τ m α}
    {separator : Parser ν τ m β}
    {value : α}
    {token : Token}
    {rest : List Token}
    {message : String}
    (inOrder : InOrder file reader.tokens)
    (first : runWith call p reader = pure (.success here value middle))
    (isMatch : Matched file snug reader middle here)
    (consumes : reader.pos < middle.pos)
    (behind : middle.rest = token :: rest)
    (stops : runWith call separator middle = pure (.failure there message)) :
    ∃ front,
      reader.tokens[reader.pos]? = some front ∧
      runWith call (p.rep1Sep separator) reader =
        pure (.success (.ofPositions file front.start token.stop) [value] middle) := by
  obtain ⟨same, _, _, last, spans, reach⟩ := isMatch
  obtain ⟨rfl, ends⟩ := reach.something consumes
  have isToken : reader.tokens[middle.pos]? = some token := by
    rw [← same]
    simp [Reader.tokens, Reader.pos, behind]
  have stands : SpansTokens file reader.tokens middle.pos middle.pos middle.location := by
    refine ⟨token, token, isToken, isToken, ?_⟩
    rw [Reader.location, behind]
    exact (inOrder.located token (List.mem_of_getElem? isToken)).1
  obtain ⟨whole, covered, front, back, isFront, isBack, rfl⟩ := inOrder.combine?_spans spans stands
  rw [Nat.min_eq_left consumes.le] at isFront
  rw [Nat.max_eq_right (by omega)] at isBack
  cases isToken.symm.trans isBack
  have nothing : runWith call ((separator.keepRight p).rep) middle =
      pure (.success middle.location [] middle) := by
    rw [runWith, behind, repeatFrom, runWith_keepRight_failure stops, pure_bind]
  have both : runWith call (p.seq (separator.keepRight p).rep) reader =
      pure (.success (.ofPositions file front.start token.stop) (value, []) middle) := by
    rw [runWith, first, onSuccess_success, nothing, onSuccess_success, cover, covered, pure_bind]
  have all := runWith_map_success (fun values : α × List α => values.1 :: values.2) both
  exact ⟨front, isFront, all⟩

/-- In front of a `2` that is not part of it the list of the `1` covers both, the sum does not. -/
theorem rep1Sep_reaches_number :
    let integer : Parser Unit String (Except (Fault Empty)) String := .tag Tag.integer
    let plus : Parser Unit String (Except (Fault Empty)) String := .reserved Tag.operator "+"
    let one : Token := ⟨"1", Tag.integer, .ofPositions "test" ⟨1, 1⟩ ⟨1, 2⟩⟩
    let two : Token := ⟨"2", Tag.integer, .ofPositions "test" ⟨1, 3⟩ ⟨1, 4⟩⟩
    let reader := Reader.ofTokens "test" [one, two]
    let behind : Reader := ⟨"test", [one], [two]⟩
    Lexer.printableTokens "test" "1 2" = .ok [one, two] ∧
    run .empty 0 (integer.rep1Sep plus) reader =
      .ok (.success (.ofPositions "test" one.start two.stop) ["1"] behind) ∧
    run .empty 0 (integer.leftRec (plus.keepRight integer) fun left _ _ => pure left) reader =
      .ok (.success (.ofPositions "test" one.start one.stop) "1" behind) ∧
    one.stop ≠ two.stop := by
  refine ⟨?_, ?_, ?_, by decide⟩ <;> cbv

end Lexed

end Parser
end Precedence
