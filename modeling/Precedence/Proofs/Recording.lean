/-!
# Computations that keep a record

Which calls a computation makes, and in which order, is told by a record that each call is
added to. The record outlives an error: what was called before it is still told.
-/

namespace Precedence

variable {α β γ ε : Type}

/-- Computations that keep a record, also when they raise an error. -/
abbrev Recording (ε γ : Type) := ExceptT ε (StateM (List γ))

namespace Recording

/-- What a computation ends with, and the record behind it. -/
def ending (x : Recording ε γ α) (record : List γ) : Except ε α × List γ :=
  (x.run.run record).run

/-- Behind a value the computation goes on with the record so far, behind an error not at all. -/
theorem ending_bind
    (x : Recording ε γ α)
    (f : α → Recording ε γ β)
    (record : List γ) :
    ending (x >>= f) record =
      match x.ending record with
      | (.ok a, next) => (f a).ending next
      | (.error error, next) => (.error error, next) := by
  unfold ending
  rw [ExceptT.run_bind, StateT.run_bind]
  generalize x.run.run record = outcome
  obtain ⟨a | error, next⟩ := outcome <;> rfl

end Recording
end Precedence
