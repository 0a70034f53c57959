import Mathlib
import Precedence.Proofs.Parser.Correspondence
import Precedence.Proofs.Parser.Reentry

/-!
# A run depends on the remaining tokens

Where a parser is run, the tokens before do not matter: a run at a place in a list of tokens is
the run over the tokens from that place on, with the others put back in front (`run_ofPlace`).
The only look back is that of a reader at the end of its tokens, whose location is that of the
last token; since some tokens remain where the run begins, it is the same token in both runs.

Both runs are compared as runs that correspond to each other (`Correspondence.preceded`), so
they raise the same faults, too. None of these faults is about a token that is not there: what is
asked of a reader is asked behind a look at the end of the tokens (`demandToken_eq`).
-/

namespace Precedence

namespace Reader

/-- The reader at a place in a list of tokens. -/
def ofPlace (fileName : String) (tokens : List Token) (place : Nat) : Reader :=
  ⟨fileName, (tokens.take place).reverse, tokens.drop place⟩

/-- The same reader, where more tokens stand in front of all. -/
def behind (before : List Token) (reader : Reader) : Reader :=
  { reader with consumed := reader.consumed ++ before.reverse }

variable {before tokens : List Token}
variable {reader : Reader}
variable {fileName : String}
variable {place : Nat}

@[simp] theorem tokens_behind : (reader.behind before).tokens = before ++ reader.tokens := by
  simp [behind, Reader.tokens]

@[simp] theorem pos_behind : (reader.behind before).pos = reader.pos + before.length := by
  simp [behind, Reader.pos]

theorem next?_behind :
    (reader.behind before).next? =
      reader.next?.map fun step => (step.1, step.2.behind before) := by
  obtain ⟨name, consumed, rest⟩ := reader
  cases rest <;> rfl

/-- A reader in some tokens has the location of one of these. -/
theorem location_behind
    (nonempty : reader.tokens ≠ []) :
    (reader.behind before).location = reader.location := by
  obtain ⟨name, consumed, rest⟩ := reader
  cases rest with
  | cons token rest => rfl
  | nil =>
      cases consumed with
      | cons token consumed => rfl
      | nil => exact absurd rfl nonempty

/-- A reader comes to a place by moving on over the tokens before it. -/
theorem advance?_eq
    {consumed rest : List Token}
    (inside : place ≤ rest.length) :
    advance? place ⟨fileName, consumed, rest⟩ =
      some ⟨fileName, (rest.take place).reverse ++ consumed, rest.drop place⟩ := by
  induction place generalizing consumed rest with
  | zero => rfl
  | succ place ih =>
      cases rest with
      | nil => cases inside
      | cons token rest =>
          rw [List.take_succ_cons, List.reverse_cons, List.append_assoc, List.singleton_append,
            List.drop_succ_cons]
          exact ih (Nat.le_of_succ_le_succ inside)

theorem advance?_ofTokens
    (inside : place ≤ tokens.length) :
    (ofTokens fileName tokens).advance? place = some (ofPlace fileName tokens place) := by
  rw [ofTokens, advance?_eq inside, List.append_nil]
  rfl

end Reader

/-- The result of a run that began where more tokens stand in front of all. -/
def Result.behind {α : Type} (before : List Token) : Result α → Result α
  | .success location value next => .success location value (next.behind before)
  | .failure location message => .failure location message

theorem Result.map_behind_inv
    {α ε : Type}
    {before : List Token}
    {outcome : Except ε (Result α)}
    {location : Location}
    {value : α}
    {next : Reader}
    (same : outcome.map (Result.behind before) = .ok (.success location value next)) :
    ∃ stop, outcome = .ok (.success location value stop) ∧ next = stop.behind before := by
  cases outcome with
  | error fault => cases same
  | ok result =>
      cases result with
      | failure here message => cases same
      | success here found stop =>
          cases same
          exact ⟨stop, rfl, rfl⟩

/-- Places in some tokens, at least one, with and without more tokens in front of them. -/
def Correspondence.preceded
    {origin : Reader}
    (before : List Token)
    (nonempty : origin.tokens ≠ []) :
    Correspondence where
  places place place' := place = place'.behind before ∧ origin.SameTokens place'
  sites := Eq
  spots := Eq
  next := by
    rintro _ place ⟨rfl, same⟩
    rw [Reader.next?_behind]
    cases moved : place.next? with
    | none => exact .none
    | some step => exact .some ⟨⟨rfl, rfl, rfl⟩, rfl, same.of_passes (.of_next? moved)⟩
  location := by
    rintro _ place ⟨rfl, same⟩
    refine Reader.location_behind ?_
    rw [same.tokens_eq]
    exact nonempty
  single := id
  combine := by
    rintro a _ b _ rfl rfl
    cases a.combine? b with
    | none => exact .none
    | some wider => exact .some rfl

namespace Correspondence

variable {ν τ α : Type} {ε : Type}
variable {c : Correspondence}
variable {call call' : ν → Reader → Except (Fault ε) (Result τ)}

/-- Where locations are the same, a parser does the same as itself if forward parsers do. -/
theorem simulates_self
    (exact : ∀ {here there}, c.spots here there → here = there)
    (calls : ∀ name, c.Simulates call call' Eq
      (.forward name : Parser ν τ (Except (Fault ε)) τ) (.forward name))
    (p : Parser ν τ (Except (Fault ε)) α) :
    c.Simulates call call' Eq p p := by
  induction p with
  | reserved tag text => exact .reserved tag text
  | tag tag =>
      intro place place' placed
      rw [Parser.runWith, Parser.runWith]
      exact .ok (.of_sites (expect (fun same => ⟨by rw [same.tag], same.tag⟩) tag placed))
  | fail message => exact .fail message
  | forward name => exact calls name
  | phrase p ih => exact ih.phrase
  | process p action ih =>
      refine ih.process fun same spots => ?_
      rw [same, exact spots]
      exact .refl _
  | seq p q ihLeft ihRight =>
      have both := ihLeft.seq ihRight
      simpa only [← Prod.ext_iff] using both
  | orElse p q ihLeft ihRight => exact ihLeft.orElse ihRight
  | rep p ih =>
      have all := ih.rep
      rwa [List.forall₂_eq_eq_eq] at all
  | leftRec p q combine ihLeft ihRight =>
      refine ihLeft.leftRec ihRight fun same sameOperand spots => ?_
      rw [same, sameOperand, exact spots]
      exact .refl _

/-- Calls do the same as well, by induction on the number that may be open at once. -/
theorem callForward_simulates_self
    (exact : ∀ {here there}, c.spots here there → here = there)
    (definitions : Definitions ν τ (Except (Fault ε)))
    (limit : Nat)
    (name : ν) :
    c.Simulates (Parser.callForward definitions limit) (Parser.callForward definitions limit) Eq
      (.forward name : Parser ν τ (Except (Fault ε)) τ) (.forward name) := by
  induction limit generalizing name with
  | zero =>
      intro place place' placed
      rw [Parser.runWith, Parser.runWith, Parser.callForward, Parser.callForward]
      cases definitions name with
      | none => exact .error rfl
      | some body => exact .error rfl
  | succ limit ih =>
      intro place place' placed
      rw [Parser.runWith, Parser.runWith, Parser.callForward, Parser.callForward]
      cases definitions name with
      | none => exact .error rfl
      | some body => exact simulates_self exact ih body _ _ placed

end Correspondence

namespace Parser

variable {ν τ α : Type} {ε : Type}

section Moved

variable {definitions : Definitions ν τ (Except (Fault ε))}
variable {limit : Nat}
variable {p : Parser ν τ (Except (Fault ε)) α}
variable {reader next : Reader}

/-- Runs with and without more tokens in front of all correspond. -/
theorem run_preceded
    (definitions : Definitions ν τ (Except (Fault ε)))
    (limit : Nat)
    (p : Parser ν τ (Except (Fault ε)) α)
    (before : List Token)
    (nonempty : reader.tokens ≠ []) :
    (Correspondence.preceded before nonempty).Outcomes Eq
      (run definitions limit p (reader.behind before)) (run definitions limit p reader) :=
  Correspondence.simulates_self id (Correspondence.callForward_simulates_self id definitions limit)
    p _ _ ⟨rfl, .refl reader⟩

/-- With more tokens in front of all a run has the same outcome, with these tokens in front. -/
theorem run_behind
    (before : List Token)
    (nonempty : reader.tokens ≠ []) :
    run definitions limit p (reader.behind before) =
      (run definitions limit p reader).map (Result.behind before) := by
  have same := run_preceded definitions limit p before nonempty
  generalize run definitions limit p (reader.behind before) = x, run definitions limit p reader = x'
    at same
  cases same with
  | error same => exact congrArg Except.error same
  | ok result =>
      cases result with
      | failure site message =>
          cases site
          rfl
      | success spots value placed =>
          obtain ⟨rfl, -⟩ := placed
          cases spots
          cases value
          rfl

/-- A run stays in the tokens that it begins in. -/
theorem sameTokens_of_run
    {location : Location}
    {value : α}
    (nonempty : reader.tokens ≠ [])
    (ran : run definitions limit p reader = .ok (.success location value next)) :
    reader.SameTokens next := by
  have same := run_preceded definitions limit p [] nonempty
  rw [ran] at same
  generalize run definitions limit p (reader.behind []) = x at same
  cases same with
  | ok result =>
      cases result with
      | success _ _ placed => exact placed.2

end Moved

section Demands

/-- What is there, or the fault of asking for it at the end of the tokens. -/
def demand (found : Option α) : Except (Fault ε) α :=
  match found with
  | some a => .ok a
  | none => .error .endOfTokens

/-- Match one token as `expect` does, asking the reader for the token and for what is behind it. -/
def demandToken (matching : Token → Bool) (expected : String) (found : Token → String)
    (reader : Reader) : Except (Fault ε) (Result String) :=
  if reader.isEmpty then
    .ok (.failure reader.location endMessage)
  else do
    let token ← demand reader.token?
    if matching token then
      let next ← demand reader.skip?
      return .success token.location token.text next
    else
      return .failure token.location ("expected " ++ expected ++ " but found " ++ found token)

/-- What is asked of a reader is there. -/
theorem demandToken_eq
    (matching : Token → Bool)
    (expected : String)
    (found : Token → String)
    (reader : Reader) :
    demandToken matching expected found reader =
      (.ok (expect matching expected found reader) : Except (Fault ε) (Result String)) := by
  obtain ⟨name, consumed, rest⟩ := reader
  cases rest with
  | nil => rfl
  | cons token rest =>
      change (if matching token then _ else _) = Except.ok (if matching token then _ else _)
      split <;> rfl

end Demands

/--
A run at a place in a list of tokens, in front of at least one, does as the run over the tokens
from that place on: it has the same outcome, with the other tokens put back in front. A match
ends in the same tokens, not before the place; and no token is asked for at the end of the tokens.
-/
theorem run_ofPlace
    (definitions : Definitions ν τ (Except (Fault ε)))
    (limit : Nat)
    (p : Parser ν τ (Except (Fault ε)) α)
    (file : String)
    (tokens : List Token)
    (place : Nat)
    (inside : place < tokens.length) :
    let runs := fun reader => run definitions limit p reader
    let reader := Reader.ofPlace file tokens place
    let alone := Reader.ofTokens file (tokens.drop place)
    runs reader = (runs alone).map (Result.behind (tokens.take place)) ∧
    (∀ location value next, runs reader = .ok (.success location value next) →
      next.fileName = file ∧ next.tokens = tokens ∧
      place ≤ next.pos ∧ next.pos ≤ tokens.length ∧
      ∃ stop, runs alone = .ok (.success location value stop) ∧ next.pos = stop.pos + place) ∧
    (∀ tag text asked,
      run definitions limit (.reserved tag text) asked =
        demandToken (fun token => token.tag == tag && token.text == text) text Token.text asked ∧
      run definitions limit (.tag tag) asked =
        demandToken (fun token => token.tag == tag) tag Token.tag asked) ∧
    (¬ MayRaise .endOfTokens p →
      (∀ name body, definitions name = some body → ¬ MayRaise .endOfTokens body) →
      runs reader ≠ .error .endOfTokens) := by
  intro runs reader alone
  have nonempty : alone.tokens ≠ [] := by
    rw [Reader.tokens_ofTokens]
    exact List.ne_nil_of_length_pos (by rw [List.length_drop]; omega)
  have moved : runs reader = (runs alone).map (Result.behind (tokens.take place)) :=
    run_behind (tokens.take place) nonempty
  refine ⟨moved, ?_, fun tag text asked => ⟨?_, ?_⟩, ?_⟩
  · intro location value next ran
    obtain ⟨stop, outcome, rfl⟩ := Result.map_behind_inv (moved.symm.trans ran)
    have same := sameTokens_of_run nonempty outcome
    have whole : (stop.behind (tokens.take place)).tokens = tokens := by
      rw [Reader.tokens_behind, same.tokens_eq, Reader.tokens_ofTokens, List.take_append_drop]
    have shifted : (stop.behind (tokens.take place)).pos = stop.pos + place := by
      rw [Reader.pos_behind, List.length_take, Nat.min_eq_left (Nat.le_of_lt inside)]
    have within := (stop.behind (tokens.take place)).pos_le
    rw [whole] at within
    exact ⟨same.fileName_eq, whole, by omega, within, stop, outcome, shifted⟩
  · exact (demandToken_eq _ _ _ _).symm
  · exact (demandToken_eq _ _ _ _).symm
  · intro own bodies fails
    rcases run_error_inv fails with same | same | raised | ⟨name, body, defined, raised⟩
    · cases same
    · cases same
    · exact own raised
    · exact bodies name body defined raised

/-- The sum of `(1)` and `2` behind another number, which it is not part of. -/
theorem run_ofPlace_sum :
    let top : Parser Unit String (Except (Fault Empty)) String := .forward ()
    let group := (((Parser.reserved Tag.reserved "(").keepRight top).keepLeft
      (.reserved Tag.reserved ")")).orElse (.tag Tag.integer)
    let sum := top.leftRec ((Parser.reserved Tag.operator "+").keepRight top)
      fun left right _ => .ok (left ++ "+" ++ right)
    let token := fun text tag start => Token.mk text tag
      (.ofPositions "sum" ⟨1, start⟩ ⟨1, start + 1⟩)
    let tokens : List Token :=
      [token "9" Tag.integer 1, token "(" Tag.reserved 3, token "1" Tag.integer 4,
        token ")" Tag.reserved 5, token "+" Tag.operator 6, token "2" Tag.integer 7]
    1 < tokens.length ∧
    ∃ next,
      run (fun _ => some group) 5 sum (.ofPlace "sum" tokens 1) =
        .ok (.success (.ofPositions "sum" ⟨1, 3⟩ ⟨1, 8⟩) "1+2" next) ∧
      next.tokens = tokens ∧ next.pos = 6 ∧
    run (fun _ => some group) 5 sum (.ofPlace "sum" tokens 1) ≠ .error .endOfTokens := by
  intro top group sum token tokens
  obtain ⟨moved, matched, -, calm⟩ :=
    run_ofPlace (fun _ => some group) 5 sum "sum" tokens 1 (by decide)
  have alone : run (fun _ => some group) 5 sum (.ofTokens "sum" (tokens.drop 1)) =
      .ok (.success (.ofPositions "sum" ⟨1, 3⟩ ⟨1, 8⟩) "1+2"
        ⟨"sum", (tokens.drop 1).reverse, []⟩) := by
    cbv
  have ran := moved.trans (congrArg (Except.map (Result.behind (tokens.take 1))) alone)
  obtain ⟨-, among, -, -, stop, same, shifted⟩ := matched _ _ _ ran
  cases alone.symm.trans same
  refine ⟨by decide, _, ran, among, shifted, calm ?_ ?_⟩
  · simp [sum, top, keepRight, Parser.map, MayRaise, pure, Except.pure]
  · rintro _ _ ⟨⟩
    simp [group, top, keepRight, keepLeft, Parser.map, MayRaise, pure, Except.pure]

end Parser
end Precedence
