import Precedence.Proofs.Parser.Confinement
import Precedence.Proofs.Parser.Reentry

/-!
# Faults of compound parsers

Which faults a compound parser may end with, given those of its parts. In one file locations
can be covered, and a loop whose step consumes tokens does not run out of rounds; so what is
put together adds no fault of its own, and what an action may add is said by its rule.
-/

namespace Precedence
namespace Parser

variable {ν τ α β : Type} {ε : Type}
variable {file : String}

/-- Runs of the parser in a file end with certain faults only, depending on the reader. -/
def FaultsOnly (file : String) (P : Reader → Fault ε → Prop)
    (call : ν → Reader → Except (Fault ε) (Result τ))
    (p : Parser ν τ (Except (Fault ε)) α) : Prop :=
  ∀ reader fault, reader.InFile file → runWith call p reader = .error fault → P reader fault

/-- A match of the parser in a file consumes a token, and its value has the property. -/
def Consumes (file : String) (W : α → Prop)
    (call : ν → Reader → Except (Fault ε) (Result τ))
    (p : Parser ν τ (Except (Fault ε)) α) : Prop :=
  ∀ reader location value next, reader.InFile file →
    runWith call p reader = .ok (.success location value next) →
    W value ∧ next.rest.length < reader.rest.length

/-- What holds of a fault at a reader holds of it at the readers before. -/
def Backward (P : Reader → Fault ε → Prop) : Prop :=
  ∀ reader front next fault, reader.Passes front next → P next fault → P reader fault

variable {P : Reader → Fault ε → Prop}
variable {V : α → Prop} {W : β → Prop}
variable {call : ν → Reader → Except (Fault ε) (Result τ)}
variable {p : Parser ν τ (Except (Fault ε)) α} {q : Parser ν τ (Except (Fault ε)) β}

/-- Locations of one file are covered without a fault, and by one of this file. -/
theorem fileName_of_cover
    {a b : Location}
    {covered : Except (Fault ε) Location}
    (left : a.fileName = file)
    (right : b.fileName = file)
    (covers : cover a b = covered) :
    ∃ location, covered = .ok location ∧ location.fileName = file := by
  obtain ⟨location, inFile, same⟩ := exists_cover (m := Except (Fault ε)) left right
  exact ⟨location, covers.symm.trans same, inFile⟩

section Rules

variable (back : Backward P)
variable (calls : ∀ name reader, reader.InFile file →
  Ensures (call name reader) (Result.Within file reader))

include calls in
theorem within_of_runWith
    {reader next : Reader}
    {location : Location}
    {value : α}
    (inFile : reader.InFile file)
    (ran : runWith call p reader = .ok (.success location value next)) :
    location.fileName = file ∧ ∃ front, reader.Passes front next :=
  runWith_within calls p inFile _ ran

include back calls in
/-- A loop has only the faults of its step, if the action does not fail on what is matched. -/
theorem foldFrom_faultsOnly
    {combine : α → β → Location → Except (Fault ε) α}
    (faults : FaultsOnly file P call q)
    (consumes : Consumes file W call q)
    (combines : ∀ {a b location}, V a → W b → ∃ c, combine a b location = .ok c ∧ V c)
    {rounds : List Token}
    {location : Location}
    {value : α}
    {reader : Reader}
    {fault : Fault ε}
    (enough : reader.rest.length ≤ rounds.length)
    (inFile : reader.InFile file)
    (located : location.fileName = file)
    (holds : V value)
    (ran : foldFrom (runWith call q) combine rounds location value reader = .error fault) :
    P reader fault := by
  induction rounds generalizing location value reader with
  | nil =>
      rw [foldFrom] at ran
      rcases bind_error_inv ran with fails | ⟨result, matching, ran⟩
      · exact faults _ _ inFile fails
      cases result with
      | failure here message => cases ran
      | success here operand next =>
          have shorter := (consumes _ _ _ _ inFile matching).2
          rw [List.length_nil] at enough
          omega
  | cons round rounds ih =>
      rw [foldFrom] at ran
      rcases bind_error_inv ran with fails | ⟨result, matching, ran⟩
      · exact faults _ _ inFile fails
      cases result with
      | failure here message => cases ran
      | success here operand next =>
          obtain ⟨isOperand, shorter⟩ := consumes _ _ _ _ inFile matching
          obtain ⟨hereIn, front, passes⟩ := within_of_runWith calls inFile matching
          obtain ⟨wider, covered, widerIn⟩ := fileName_of_cover located hereIn rfl
          dsimp only at ran
          rw [covered] at ran
          obtain ⟨folded, combined, holdsOn⟩ : ∃ c, combine value operand wider = .ok c ∧ V c :=
            combines holds isOperand
          change combine value operand wider >>= _ = _ at ran
          rw [combined] at ran
          rw [List.length_cons] at enough
          exact back _ _ _ _ passes (ih (by omega) (inFile.of_passes passes) widerIn holdsOn ran)

namespace FaultsOnly

theorem reserved
    (tag : Tag)
    (text : String) :
    FaultsOnly file P call (.reserved tag text) := by
  intro reader fault inFile ran
  cases ran

theorem fail
    (message : String) :
    FaultsOnly file P call (.fail message : Parser ν τ (Except (Fault ε)) α) := by
  intro reader fault inFile ran
  cases ran

theorem process
    {action : α → Location → Except (Fault ε) β}
    (faults : FaultsOnly file P call p)
    (acts : ∀ {reader location value next fault}, reader.InFile file →
      runWith call p reader = .ok (.success location value next) →
      action value location = .error fault → P reader fault) :
    FaultsOnly file P call (p.process action) := by
  intro reader fault inFile ran
  rw [runWith] at ran
  rcases onSuccess_error_inv ran with fails | ⟨here, value, next, matching, ran⟩
  · exact faults _ _ inFile fails
  rcases bind_error_inv ran with fails | ⟨_, _, ran⟩
  · exact acts inFile matching fails
  · cases ran

theorem map
    (faults : FaultsOnly file P call p)
    (f : α → β) :
    FaultsOnly file P call (p.map f) :=
  faults.process fun _ _ acted => absurd acted (fun same => nomatch same)

theorem orElse
    {q : Parser ν τ (Except (Fault ε)) α}
    (first : FaultsOnly file P call p)
    (second : FaultsOnly file P call q) :
    FaultsOnly file P call (p.orElse q) := by
  intro reader fault inFile ran
  rw [runWith] at ran
  rcases bind_error_inv ran with fails | ⟨result, _, ran⟩
  · exact first _ _ inFile fails
  cases result with
  | success here value next => cases ran
  | failure here message => exact second _ _ inFile ran

theorem phrase
    (faults : FaultsOnly file P call p) :
    FaultsOnly file P call p.phrase := by
  intro reader fault inFile ran
  rw [runWith] at ran
  rcases onSuccess_error_inv ran with fails | ⟨_, _, _, _, ran⟩
  · exact faults _ _ inFile fails
  · cases ran

include back calls

theorem seq
    (first : FaultsOnly file P call p)
    (second : FaultsOnly file P call q) :
    FaultsOnly file P call (p.seq q) := by
  intro reader fault inFile ran
  rw [runWith] at ran
  rcases onSuccess_error_inv ran with fails | ⟨here, left, middle, matching, ran⟩
  · exact first _ _ inFile fails
  obtain ⟨hereIn, front, passes⟩ := within_of_runWith calls inFile matching
  have middleIn := inFile.of_passes passes
  rcases onSuccess_error_inv ran with fails | ⟨there, right, next, matching, ran⟩
  · exact back _ _ _ _ passes (second _ _ middleIn fails)
  obtain ⟨thereIn, _⟩ := within_of_runWith calls middleIn matching
  obtain ⟨whole, covered, _⟩ := fileName_of_cover hereIn thereIn rfl
  rw [covered] at ran
  cases ran

theorem keepLeft
    (first : FaultsOnly file P call p)
    (second : FaultsOnly file P call q) :
    FaultsOnly file P call (p.keepLeft q) :=
  (seq back calls first second).map Prod.fst

theorem keepRight
    (first : FaultsOnly file P call p)
    (second : FaultsOnly file P call q) :
    FaultsOnly file P call (p.keepRight q) :=
  (seq back calls first second).map Prod.snd

theorem rep
    (faults : FaultsOnly file P call q)
    (consumes : Consumes file W call q) :
    FaultsOnly file P call q.rep := by
  intro reader fault inFile ran
  rw [runWith, repeatFrom_eq_foldFrom] at ran
  exact foldFrom_faultsOnly (V := fun _ => True) back calls faults consumes
    (fun _ _ => ⟨_, rfl, trivial⟩) (Nat.le_refl _) inFile inFile.location trivial ran

theorem leftRec
    {combine : α → β → Location → Except (Fault ε) α}
    (first : FaultsOnly file P call p)
    (begins : Consumes file V call p)
    (faults : FaultsOnly file P call q)
    (consumes : Consumes file W call q)
    (combines : ∀ {a b location}, V a → W b → ∃ c, combine a b location = .ok c ∧ V c) :
    FaultsOnly file P call (p.leftRec q combine) := by
  intro reader fault inFile ran
  rw [runWith] at ran
  rcases onSuccess_error_inv ran with fails | ⟨here, value, next, matching, ran⟩
  · exact first _ _ inFile fails
  obtain ⟨hereIn, front, passes⟩ := within_of_runWith calls inFile matching
  exact back _ _ _ _ passes (foldFrom_faultsOnly back calls faults consumes combines (Nat.le_refl _)
    (inFile.of_passes passes) hereIn (begins _ _ _ _ inFile matching).1 ran)

end FaultsOnly

end Rules

end Parser
end Precedence
