import Precedence.Proofs.Parser.Reentry

/-!
# Progress of loops

The rounds of a loop are counted by the tokens that remain, and a loop that uses them up is
called endless. If each match of what a loop repeats passes over a token, the count is never
decisive: the tokens end first, and the step with them (`not_exceeds_of_advances`).

So a run of a parser in which this holds of every loop ends with a result, or with a fault that
it has from an action, from locations in different files, or from a call of a forward parser
(`runWith_error_of_advances`).
-/

namespace Precedence
namespace Parser

variable {ν τ α β : Type} {ε : Type}

/-- The property holds of every parser that a loop in the parser repeats. -/
def EveryStep {m : Type → Type} (P : {β : Type} → Parser ν τ m β → Prop) :
    {α : Type} → Parser ν τ m α → Prop
  | _, .reserved _ _ => True
  | _, .tag _ => True
  | _, .fail _ => True
  | _, .forward _ => True
  | _, .phrase p => EveryStep P p
  | _, .process p _ => EveryStep P p
  | _, .seq p q => EveryStep P p ∧ EveryStep P q
  | _, .orElse p q => EveryStep P p ∧ EveryStep P q
  | _, .rep p => P p ∧ EveryStep P p
  | _, .leftRec p q _ => P q ∧ EveryStep P p ∧ EveryStep P q

/-- A match of the parser passes over at least so many tokens. -/
def Advances (call : ν → Reader → Except (Fault ε) (Result τ)) (count : Nat)
    (p : Parser ν τ (Except (Fault ε)) α) : Prop :=
  ∀ {reader location value next}, runWith call p reader = .ok (.success location value next) →
    ∃ front, reader.Passes front next ∧ count ≤ front.length

/-- An action in the parser raises the fault, on a value that it may be given. -/
def Acts (call : ν → Reader → Except (Fault ε) (Result τ)) (fault : Fault ε) :
    {α : Type} → Parser ν τ (Except (Fault ε)) α → Prop
  | _, .phrase p => Acts call fault p
  | _, .process p action =>
      Acts call fault p ∨
      ∃ reader location value next,
        runWith call p reader = .ok (.success location value next) ∧
        action value location = .error fault
  | _, .seq p q => Acts call fault p ∨ Acts call fault q
  | _, .orElse p q => Acts call fault p ∨ Acts call fault q
  | _, .rep p => Acts call fault p
  | _, .leftRec p q combine =>
      Acts call fault p ∨ Acts call fault q ∨
        ∃ a b location, combine a b location = .error fault
  | _, _ => False

variable {call : ν → Reader → Except (Fault ε) (Result τ)}
variable {p : Parser ν τ (Except (Fault ε)) α}
variable {reader : Reader}
variable {fault : Fault ε}
variable {count : Nat}

/-- What passes over a token each time does not match more often than there are tokens. -/
theorem not_exceeds_of_advances
    (advances : Advances call (count + 1) p)
    {rounds : Nat}
    (enough : reader.rest.length ≤ rounds) :
    ¬ Exceeds (runWith call p) rounds reader := by
  induction rounds generalizing reader with
  | zero =>
      rintro ⟨_, _, _, matching⟩
      obtain ⟨front, passes, some⟩ := advances matching
      have longer := passes.length_rest
      omega
  | succ rounds ih =>
      rintro ⟨_, _, _, matching, exceeds⟩
      obtain ⟨front, passes, some⟩ := advances matching
      have longer := passes.length_rest
      exact ih (by omega) exceeds

/-- If all loops advance, a fault comes from locations, from an action or from a call. -/
theorem runWith_error_of_advances
    (steps : p.EveryStep (Advances call (count + 1)))
    (ran : runWith call p reader = .error fault) :
    fault = .differentFiles ∨ Acts call fault p ∨
    ∃ name place, Calls call name place p reader ∧ call name place = .error fault := by
  induction p generalizing reader with
  | reserved tag text => cases ran
  | tag tag => cases ran
  | fail message => cases ran
  | forward name => exact .inr (.inr ⟨name, reader, ⟨rfl, rfl⟩, ran⟩)
  | phrase p ih =>
      rw [runWith] at ran
      rcases onSuccess_error_inv ran with fails | ⟨_, _, _, _, fails⟩
      · exact ih steps fails
      · cases fails
  | process p action ih =>
      rw [runWith] at ran
      rcases onSuccess_error_inv ran with fails | ⟨here, value, next, matching, fails⟩
      · exact (ih steps fails).imp_right (.imp_left .inl)
      rcases bind_error_inv fails with acted | ⟨_, _, fails⟩
      · exact .inr (.inl (.inr ⟨_, here, value, next, matching, acted⟩))
      · cases fails
  | seq p q ihLeft ihRight =>
      rw [runWith] at ran
      rcases onSuccess_error_inv ran with fails | ⟨here, left, middle, ranLeft, fails⟩
      · exact (ihLeft steps.1 fails).imp_right (.imp .inl (exists_call_mono .inl))
      rcases onSuccess_error_inv fails with fails | ⟨there, right, stop, _, fails⟩
      · exact (ihRight steps.2 fails).imp_right
          (.imp .inr (exists_call_mono fun calls => .inr ⟨here, left, middle, ranLeft, calls⟩))
      rcases bind_error_inv fails with covered | ⟨_, _, fails⟩
      · exact .inl (eq_differentFiles_of_cover covered)
      · cases fails
  | orElse p q ihLeft ihRight =>
      rw [runWith] at ran
      rcases bind_error_inv ran with fails | ⟨result, ranLeft, fails⟩
      · exact (ihLeft steps.1 fails).imp_right (.imp .inl (exists_call_mono .inl))
      cases result with
      | success here value next => cases fails
      | failure here message =>
          exact (ihRight steps.2 fails).imp_right
            (.imp .inr (exists_call_mono fun calls => .inr ⟨⟨here, message, ranLeft⟩, calls⟩))
  | rep p ih =>
      rw [runWith, repeatFrom_eq_foldFrom] at ran
      rcases foldFrom_error_inv ran with
        ⟨middle, reaches, fails⟩ | files | ⟨_, exceeds⟩ | ⟨_, _, _, acted⟩
      · exact (ih steps.2 fails).imp_right
          (.imp_right (exists_call_mono fun calls => ⟨middle, reaches, calls⟩))
      · exact .inl files
      -- The loop has as many rounds as tokens remain where it begins.
      · exact absurd exceeds (not_exceeds_of_advances steps.1 (Nat.le_refl _))
      · cases acted
  | leftRec p q combine ihLeft ihRight =>
      rw [runWith] at ran
      rcases onSuccess_error_inv ran with fails | ⟨here, value, behind, ranLeft, fails⟩
      · exact (ihLeft steps.2.1 fails).imp_right (.imp .inl (exists_call_mono .inl))
      rcases foldFrom_error_inv fails with
        ⟨middle, reaches, fails⟩ | files | ⟨_, exceeds⟩ | acted
      · exact (ihRight steps.2.2 fails).imp_right (.imp (fun own => .inr (.inl own))
          (exists_call_mono fun calls => .inr ⟨here, value, behind, middle, ranLeft, reaches, calls⟩))
      · exact .inl files
      · exact absurd exceeds (not_exceeds_of_advances steps.1 (Nat.le_refl _))
      · exact .inr (.inl (.inr (.inr acted)))

end Parser
end Precedence
