import Mathlib.Data.Prod.Lex
import Precedence.Location

/-!
# The order of positions

Positions are ordered by row, and within a row by column. This is the order that
`Position.before` decides, and the earlier and the later of two positions are their minimum and
their maximum in it.
-/

namespace Precedence
namespace Position

theorem toLex_injective :
    Function.Injective fun p : Position => toLex (p.row, p.column) := by
  rintro ⟨row, column⟩ ⟨row', column'⟩ same
  simpa using same

instance : LinearOrder Position :=
  LinearOrder.lift' _ toLex_injective

variable {p q : Position}

theorem le_iff :
    p ≤ q ↔ p.row < q.row ∨ p.row = q.row ∧ p.column ≤ q.column :=
  Prod.Lex.toLex_le_toLex

theorem lt_iff :
    p < q ↔ p.row < q.row ∨ p.row = q.row ∧ p.column < q.column :=
  Prod.Lex.toLex_lt_toLex

theorem before_iff :
    p.before q = true ↔ p < q := by
  simp [before, lt_iff]

@[simp] theorem earlier_eq_min
    (p q : Position) :
    p.earlier q = min p q := by
  by_cases before : q < p
  · simp [earlier, before_iff, before, before.le]
  · simp [earlier, before_iff, before, le_of_not_gt before]

@[simp] theorem later_eq_max
    (p q : Position) :
    p.later q = max p q := by
  by_cases before : p < q
  · simp [later, before_iff, before, before.le]
  · simp [later, before_iff, before, le_of_not_gt before]

end Position

namespace Location

/-- The first location lies inside the second one, in the same file. -/
structure Inside (inner outer : Location) : Prop where
  fileName_eq : inner.fileName = outer.fileName
  start_le : outer.span.start ≤ inner.span.start
  stop_le : inner.span.stop ≤ outer.span.stop

/-- Two locations inside a third one, the second not before the end of the first. -/
structure Splits (whole left right : Location) : Prop where
  left_inside : left.Inside whole
  right_inside : right.Inside whole
  stop_le_start : left.span.stop ≤ right.span.start

theorem combine?_ofPositions
    {start stop start' stop' : Position}
    (file : String)
    (starts : start ≤ start')
    (stops : stop ≤ stop') :
    (ofPositions file start stop).combine? (ofPositions file start' stop') =
      some (ofPositions file start stop') := by
  simp [combine?, ofPositions, fileName, span, starts, stops]

end Location
end Precedence
