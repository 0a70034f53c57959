import Precedence.Proofs.Location.Covering
import Precedence.Proofs.Parser.Faults

/-!
# Laws of the combinators

Some ways to write a grammar differently leave its runs as they are, down to the locations and
the reports: to share the beginning of two alternatives, to drop an alternative that always fails,
and to put brackets elsewhere around alternatives and sequences (`combinators_obey_laws`).

Alternatives need nothing for that but actions that only compute. A sequence covers the locations
of its parts, and sets its brackets on the locations, too; so its law is about one file, in which
locations are always covered, and rests on `Location.around_assoc`. The laws about sequences that
drop a value come from it by `runWith_map`: to drop a value is to change nothing but values.
-/

namespace Precedence

/-- The result with another value. -/
def Result.map {α β : Type} (f : α → β) : Result α → Result β
  | .success location value next => .success location (f value) next
  | .failure location message => .failure location message

namespace Parser

variable {ν τ α β γ δ : Type} {ε : Type}
variable {call : ν → Reader → Except (Fault ε) (Result τ)}
variable {reader : Reader}
variable {file : String}

section Values

theorem map_map
    (f : α → β)
    (g : β → γ)
    (outcome : Except (Fault ε) (Result α)) :
    (outcome.map (Result.map f)).map (Result.map g) =
      outcome.map (Result.map fun value => g (f value)) := by
  cases outcome with
  | error fault => rfl
  | ok result => cases result <;> rfl

/-- What is matched with another value goes on as it does with its own. -/
theorem onSuccess_map
    (f : α → β)
    (outcome : Except (Fault ε) (Result α))
    (go : Location → β → Reader → Except (Fault ε) (Result γ)) :
    onSuccess (outcome.map (Result.map f)) go =
      onSuccess outcome fun location value next => go location (f value) next := by
  cases outcome with
  | error fault => rfl
  | ok result => cases result <;> rfl

/-- A function of the value behind a match is one of the value of the whole. -/
theorem map_onSuccess
    (f : β → γ)
    (outcome : Except (Fault ε) (Result α))
    (go : Location → α → Reader → Except (Fault ε) (Result β)) :
    (onSuccess outcome go).map (Result.map f) =
      onSuccess outcome fun location value next => (go location value next).map (Result.map f) := by
  cases outcome with
  | error fault => rfl
  | ok result => cases result <;> rfl

variable (p : Parser ν τ (Except (Fault ε)) α) (q : Parser ν τ (Except (Fault ε)) β)

theorem runWith_map
    (f : α → β) :
    runWith call (p.map f) reader = (runWith call p reader).map (Result.map f) := by
  rw [Parser.map, runWith]
  cases runWith call p reader with
  | error fault => rfl
  | ok result => cases result <;> rfl

theorem runWith_seq_map_left
    (f : α → γ) :
    runWith call ((p.map f).seq q) reader =
      (runWith call (p.seq q) reader).map (Result.map (Prod.map f id)) := by
  rw [runWith, runWith, runWith_map, onSuccess_map, map_onSuccess]
  refine onSuccess_congr rfl fun here left middle _ => ?_
  rw [map_onSuccess]
  refine onSuccess_congr rfl fun there right next _ => ?_
  cases (cover here there : Except (Fault ε) Location) <;> rfl

theorem runWith_seq_map_right
    (f : β → γ) :
    runWith call (p.seq (q.map f)) reader =
      (runWith call (p.seq q) reader).map (Result.map (Prod.map id f)) := by
  rw [runWith, runWith, map_onSuccess]
  refine onSuccess_congr rfl fun here left middle _ => ?_
  rw [runWith_map, onSuccess_map, map_onSuccess]
  refine onSuccess_congr rfl fun there right next _ => ?_
  cases (cover here there : Except (Fault ε) Location) <;> rfl

end Values

section Alternatives

theorem runWith_orElse_assoc
    (p q r : Parser ν τ (Except (Fault ε)) α) :
    runWith call ((p.orElse q).orElse r) reader = runWith call (p.orElse (q.orElse r)) reader := by
  simp only [runWith]
  cases runWith call p reader with
  | error fault => rfl
  | ok result => cases result <;> rfl

theorem runWith_fail_orElse
    (message : String)
    (p : Parser ν τ (Except (Fault ε)) α) :
    runWith call ((Parser.fail message).orElse p) reader = runWith call p reader := by
  simp only [runWith, pure_bind]

/-- The same beginning of two alternatives is matched once as well as twice. -/
theorem runWith_seq_orElse_seq
    (p : Parser ν τ (Except (Fault ε)) α)
    (q r : Parser ν τ (Except (Fault ε)) β) :
    runWith call ((p.seq q).orElse (p.seq r)) reader = runWith call (p.seq (q.orElse r)) reader := by
  simp only [runWith]
  cases runWith call p reader with
  | error fault => rfl
  | ok result =>
      cases result with
      | failure here message => rfl
      | success here left middle =>
          simp only [onSuccess_ok]
          cases runWith call q middle with
          | error fault => rfl
          | ok result =>
              cases result with
              | failure there message => rfl
              | success there right next =>
                  change (cover here there >>= _) >>= _ = cover here there >>= _
                  cases (cover here there : Except (Fault ε) Location) <;> rfl

end Alternatives

section Sequences

variable (calls : ∀ name reader, reader.InFile file →
  Ensures (call name reader) (Result.Within file reader))

theorem cover_of_sameFile
    {a b : Location}
    (same : a.fileName = b.fileName) :
    cover a b = (pure (a.around b) : Except (Fault ε) Location) := by
  rw [cover, Location.combine?_of_sameFile same]

/-- What goes on behind a sequence goes on behind its second part. -/
theorem onSuccess_onSuccess
    (outcome : Except (Fault ε) (Result α))
    (go : Location → α → Reader → Except (Fault ε) (Result β))
    (later : Location → β → Reader → Except (Fault ε) (Result γ)) :
    onSuccess (onSuccess outcome go) later =
      onSuccess outcome fun location value next => onSuccess (go location value next) later := by
  cases outcome with
  | error fault => rfl
  | ok result => cases result <;> rfl

theorem onSuccess_cover
    (a b : Location)
    (value : α)
    (next : Reader)
    (go : Location → α → Reader → Except (Fault ε) (Result β)) :
    onSuccess (cover a b >>= fun location => pure (.success location value next)) go =
      cover a b >>= fun location => go location value next := by
  cases (cover a b : Except (Fault ε) Location) <;> rfl

include calls in
/-- Of three parsers in a row it does not matter which two are put together first. -/
theorem runWith_seq_assoc
    (inFile : reader.InFile file)
    (p : Parser ν τ (Except (Fault ε)) α)
    (q : Parser ν τ (Except (Fault ε)) β)
    (r : Parser ν τ (Except (Fault ε)) γ) :
    runWith call ((p.seq q).seq r) reader =
      (runWith call (p.seq (q.seq r)) reader).map
        (Result.map fun values => ((values.1, values.2.1), values.2.2)) := by
  simp only [runWith, onSuccess_onSuccess, onSuccess_cover, map_onSuccess]
  refine onSuccess_congr rfl fun here first middle ranFirst => ?_
  obtain ⟨hereIn, front, passes⟩ := within_of_runWith calls inFile ranFirst
  have middleIn := inFile.of_passes passes
  refine onSuccess_congr rfl fun there second next ranSecond => ?_
  obtain ⟨thereIn, back, passesOn⟩ := within_of_runWith calls middleIn ranSecond
  have nextIn := middleIn.of_passes passesOn
  simp only [cover_of_sameFile (hereIn.trans thereIn.symm), pure_bind]
  refine onSuccess_congr rfl fun beyond third stop ranThird => ?_
  obtain ⟨beyondIn, -⟩ := within_of_runWith calls nextIn ranThird
  have left : (here.around there).fileName = beyond.fileName := hereIn.trans beyondIn.symm
  have right : here.fileName = (there.around beyond).fileName := hereIn.trans thereIn.symm
  simp only [cover_of_sameFile (thereIn.trans beyondIn.symm), cover_of_sameFile left,
    cover_of_sameFile right, pure_bind, Location.around_assoc]
  rfl

include calls in
theorem runWith_keepRight_keepLeft
    (inFile : reader.InFile file)
    (p : Parser ν τ (Except (Fault ε)) α)
    (q : Parser ν τ (Except (Fault ε)) β)
    (r : Parser ν τ (Except (Fault ε)) γ) :
    runWith call ((p.keepRight q).keepLeft r) reader =
      runWith call (p.keepRight (q.keepLeft r)) reader := by
  simp only [keepLeft, keepRight, runWith_map, runWith_seq_map_left, runWith_seq_map_right,
    runWith_seq_assoc calls inFile, map_map, Prod.map, id]

include calls in
theorem runWith_keepRight_keepRight
    (inFile : reader.InFile file)
    (p : Parser ν τ (Except (Fault ε)) α)
    (q : Parser ν τ (Except (Fault ε)) β)
    (r : Parser ν τ (Except (Fault ε)) γ) :
    runWith call ((p.keepRight q).keepRight r) reader =
      runWith call (p.keepRight (q.keepRight r)) reader := by
  simp only [keepRight, runWith_map, runWith_seq_map_left, runWith_seq_map_right,
    runWith_seq_assoc calls inFile, map_map, Prod.map, id]

end Sequences

/--
Over tokens of one file these parsers do the same, with the same faults and reports, at the same
locations, with the same values and with the same readers behind a match: alternatives with a
common beginning and one beginning with alternatives behind it; alternatives with the brackets on
either side; a parser with and without an alternative in front that always fails; sequences that
keep one of their values, with the brackets on either side. Sequences that keep all values differ
in how the values are nested.
-/
theorem combinators_obey_laws
    (definitions : Definitions ν τ (Except (Fault ε)))
    (limit : Nat)
    (reader : Reader)
    (oneFile : InOneFile reader.tokens)
    (p p' p'' : Parser ν τ (Except (Fault ε)) α)
    (q q' : Parser ν τ (Except (Fault ε)) β)
    (r : Parser ν τ (Except (Fault ε)) γ)
    (message : String) :
    let runs {δ : Type} (parser : Parser ν τ (Except (Fault ε)) δ) :=
      run definitions limit parser reader
    runs ((p.seq q).orElse (p.seq q')) = runs (p.seq (q.orElse q')) ∧
    runs ((p.orElse p').orElse p'') = runs (p.orElse (p'.orElse p'')) ∧
    runs ((Parser.fail message).orElse p) = runs p ∧
    runs ((p.keepRight q).keepLeft r) = runs (p.keepRight (q.keepLeft r)) ∧
    runs ((p.keepRight q).keepRight r) = runs (p.keepRight (q.keepRight r)) ∧
    runs ((p.seq q).seq r) =
      (runs (p.seq (q.seq r))).map
        (Result.map fun values => ((values.1, values.2.1), values.2.2)) := by
  have inFile := Reader.inFile_of_inOneFile oneFile
  have calls (name : ν) (place : Reader) (placeIn : place.InFile reader.location.fileName) :=
    callForward_within definitions limit name placeIn
  exact ⟨runWith_seq_orElse_seq p q q', runWith_orElse_assoc p p' p'',
    runWith_fail_orElse message p, runWith_keepRight_keepLeft calls inFile p q r,
    runWith_keepRight_keepRight calls inFile p q r, runWith_seq_assoc calls inFile p q r⟩

/-- A number in parentheses, where it may also be a group. -/
theorem combinators_obey_laws_group :
    let opening : Parser Unit String (Except (Fault Empty)) String := .reserved Tag.reserved "("
    let closing : Parser Unit String (Except (Fault Empty)) String := .reserved Tag.reserved ")"
    let number : Parser Unit String (Except (Fault Empty)) String := .tag Tag.integer
    let token := fun text tag start => Token.mk text tag
      (.ofPositions "sum" ⟨1, start⟩ ⟨1, start + 1⟩)
    let reader := Reader.ofTokens "sum"
      [token "(" Tag.reserved 1, token "7" Tag.integer 3, token ")" Tag.reserved 4]
    InOneFile reader.tokens ∧
    run .empty 0 (opening.keepRight (number.keepLeft closing)) reader =
      .ok (.success (.ofPositions "sum" ⟨1, 1⟩ ⟨1, 5⟩) "7" ⟨"sum", reader.tokens.reverse, []⟩) ∧
    run .empty 0 ((opening.seq opening).orElse (opening.seq number)) reader =
      run .empty 0 (opening.seq (opening.orElse number)) reader := by
  intro opening closing number token reader
  have oneFile : InOneFile reader.tokens := by
    decide
  have grouped : run .empty 0 ((opening.keepRight number).keepLeft closing) reader =
      .ok (.success (.ofPositions "sum" ⟨1, 1⟩ ⟨1, 5⟩) "7" ⟨"sum", reader.tokens.reverse, []⟩) := by
    rfl
  obtain ⟨-, -, -, brackets, -⟩ := combinators_obey_laws .empty 0 reader oneFile opening opening
    opening number number closing ""
  obtain ⟨shared, -⟩ := combinators_obey_laws .empty 0 reader oneFile opening opening opening
    opening number closing ""
  exact ⟨oneFile, brackets.symm.trans grouped, shared⟩

end Parser
end Precedence
