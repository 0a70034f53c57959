import Precedence.Proofs.Grammar.Derivation
import Precedence.Proofs.Parser.Inversion

/-!
# What is checked of a table

Items are checked one by one, and each against the operators of those before it. So a table
that comes out has operators only, and no two of them are the same.
-/

namespace Precedence
namespace LevelTable

open Precedence.Parser

variable {seen : List String}
variable {index : Nat}
variable {item document : Datum}
variable {items : List Datum}
variable {level : OperatorLevel}
variable {table : LevelTable}

theorem isOperator_of_operatorOf
    {operator : String}
    (checked : operatorOf index item = .ok operator) :
    isOperator operator = true := by
  unfold operatorOf at checked
  split at checked
  · split at checked
    · cases checked
      assumption
    · cases checked
  · cases checked

/-- An item becomes a level with an operator that no item before it has. -/
theorem levelOf_ok_inv
    (checked : levelOf seen index item = .ok level) :
    isOperator level.operator = true ∧ level.operator ∉ seen := by
  unfold levelOf at checked
  split at checked
  · obtain ⟨operator, ofItem, checked⟩ := bind_inv checked
    by_cases before : seen.contains operator
    · rw [if_pos before] at checked
      cases checked
    · rw [if_neg before] at checked
      obtain ⟨operation, _, checked⟩ := bind_inv checked
      obtain ⟨associativity, _, checked⟩ := bind_inv checked
      cases checked
      exact ⟨isOperator_of_operatorOf (mapError_inv ofItem), by simpa using before⟩
  · cases checked

/-- The operators of all items are different from those before them and from each other. -/
theorem levelsFrom_ok_inv
    (checked : levelsFrom seen index items = .ok table) :
    (∀ level ∈ table, isOperator level.operator = true ∧ level.operator ∉ seen) ∧
      table.Distinct := by
  induction items generalizing seen index table with
  | nil =>
      cases checked
      exact ⟨by simp, .nil⟩
  | cons item items ih =>
      obtain ⟨level, ofItem, checked⟩ := bind_inv checked
      obtain ⟨levels, behind, checked⟩ := bind_inv checked
      cases checked
      obtain ⟨each, distinct⟩ := ih behind
      constructor
      · refine List.forall_mem_cons.mpr ⟨levelOf_ok_inv ofItem, ?_⟩
        intro other there
        obtain ⟨isOperator, notSeen⟩ := each other there
        exact ⟨isOperator, fun before => notSeen (List.mem_cons_of_mem _ before)⟩
      · refine List.pairwise_cons.mpr ⟨?_, distinct⟩
        intro other there same
        exact (each other there).2 (same ▸ List.mem_cons_self)

/-- A table that is accepted has distinct operators, each of which was checked to be one. -/
theorem ofDocument_ok_inv
    (accepted : ofDocument document = .ok table) :
    (∀ level ∈ table, isOperator level.operator = true) ∧ table.Distinct := by
  unfold ofDocument at accepted
  split at accepted
  · obtain ⟨each, distinct⟩ := levelsFrom_ok_inv accepted
    exact ⟨fun level there => (each level there).1, distinct⟩
  · cases accepted

end LevelTable
end Precedence
