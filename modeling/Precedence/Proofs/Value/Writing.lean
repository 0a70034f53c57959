import Mathlib.Tactic.SplitIfs
import Precedence.Value.Literal

/-!
# Which values can be written

The height of a value is the number of values that stand in each other at most, the value itself
counted. A literal is written to its end exactly if the height is within the depth that there is
for it and no integer in it has too many digits (`writeError?_eq_none_iff`). Otherwise the error tells
which of the two is not so (`writes_writeError?`).
-/

namespace Precedence

/-- An integer of few enough digits is written. -/
theorem Numeral.isOk_write_iff
    (value : Int) :
    (write value).isOk = true ↔ value.natAbs < Nat.pow 10 digitLimit := by
  unfold write
  split_ifs with short
  · exact iff_of_true rfl short
  · exact iff_of_false Bool.false_ne_true short

namespace Value

mutual

/-- The number of values that stand in each other. -/
def height : Datum → Nat
  | list items => heightOfItems items + 1
  | tuple items => heightOfItems items + 1
  | mapping entries => heightOfEntries entries + 1
  | _ => 1

/-- The greatest height of the items of a list. -/
def heightOfItems : List Datum → Nat
  | [] => 0
  | item :: rest => max (height item) (heightOfItems rest)

/-- The greatest height of the keys and values of a mapping. -/
def heightOfEntries : List (Datum × Datum) → Nat
  | [] => 0
  | (key, item) :: rest => max (max (height key) (height item)) (heightOfEntries rest)

end

mutual

/-- Every integer in a value has few enough digits to be written. -/
def IsShort : Datum → Prop
  | int value => value.natAbs < Nat.pow 10 Numeral.digitLimit
  | list items => AreShort items
  | tuple items => AreShort items
  | mapping entries => AreEntriesShort entries
  | _ => True

/-- Every integer in the items of a list has few enough digits to be written. -/
def AreShort : List Datum → Prop
  | [] => True
  | item :: rest => IsShort item ∧ AreShort rest

/-- Every integer in the keys and values of a mapping has few enough digits to be written. -/
def AreEntriesShort : List (Datum × Datum) → Prop
  | [] => True
  | (key, item) :: rest => (IsShort key ∧ IsShort item) ∧ AreEntriesShort rest

end

/-- How the writing of a value of some height comes out, and what this tells about the value. -/
inductive Writes (depth height : Nat) (short : Prop) : Option WriteError → Prop
  | ended
      (low : height ≤ depth)
      (isShort : short) :
      Writes depth height short none
  | tooLong
      (long : ¬ short) :
      Writes depth height short (some .tooLong)
  | tooDeep
      (high : depth < height) :
      Writes depth height short (some .tooDeep)

namespace Writes

variable {depth height height' : Nat}
variable {short short' : Prop}
variable {error? error?' : Option WriteError}

/-- One value is written behind another. -/
theorem or
    (first : Writes depth height short error?)
    (second : Writes depth height' short' error?') :
    Writes depth (max height height') (short ∧ short') (error?.or error?') := by
  cases first with
  | tooLong long => exact .tooLong fun both => long both.1
  | tooDeep high => exact .tooDeep (Nat.lt_of_lt_of_le high (Nat.le_max_left ..))
  | ended low isShort =>
      cases second with
      | tooLong long => exact .tooLong fun both => long both.2
      | tooDeep high => exact .tooDeep (Nat.lt_of_lt_of_le high (Nat.le_max_right ..))
      | ended low' isShort' => exact .ended (Nat.max_le.mpr ⟨low, low'⟩) ⟨isShort, isShort'⟩

/-- The parts of a value are written one level deeper. -/
theorem succ
    (parts : Writes depth height short error?) :
    Writes (depth + 1) (height + 1) short error? := by
  cases parts with
  | ended low isShort => exact .ended (Nat.succ_le_succ low) isShort
  | tooLong long => exact .tooLong long
  | tooDeep high => exact .tooDeep (Nat.succ_lt_succ high)

theorem eq_none_iff
    (writes : Writes depth height short error?) :
    error? = none ↔ height ≤ depth ∧ short := by
  cases writes with
  | ended low isShort => exact iff_of_true rfl ⟨low, isShort⟩
  | tooLong long => exact iff_of_false nofun fun both => long both.2
  | tooDeep high => exact iff_of_false nofun fun both => Nat.not_le_of_lt high both.1

end Writes

mutual

theorem writes_writeError? :
    (depth : Nat) → (value : Datum) →
    Writes depth value.height value.IsShort (value.writeError? depth)
  | 0, value => by
      rw [writeError?]
      exact .tooDeep (by cases value <;> simp [height])
  | depth + 1, int value => by
      rw [writeError?, height, IsShort, ← Numeral.isOk_write_iff]
      · split_ifs with isShort
        · exact .ended (Nat.le_add_left 1 depth) isShort
        · exact .tooLong isShort
      all_goals nofun
  | depth + 1, list items => by
      rw [writeError?, height, IsShort]
      exact (writes_writeErrorOfItems? depth items).succ
  | depth + 1, tuple items => by
      rw [writeError?, height, IsShort]
      exact (writes_writeErrorOfItems? depth items).succ
  | depth + 1, mapping entries => by
      rw [writeError?, height, IsShort]
      exact (writes_writeErrorOfEntries? depth entries).succ
  | depth + 1, null => .ended (Nat.le_add_left 1 depth) trivial
  | depth + 1, bool _ => .ended (Nat.le_add_left 1 depth) trivial
  | depth + 1, float _ => .ended (Nat.le_add_left 1 depth) trivial
  | depth + 1, text _ => .ended (Nat.le_add_left 1 depth) trivial
  | depth + 1, brokenText _ => .ended (Nat.le_add_left 1 depth) trivial

theorem writes_writeErrorOfItems? :
    (depth : Nat) → (items : List Datum) →
    Writes depth (heightOfItems items) (AreShort items) (writeErrorOfItems? depth items)
  | depth, [] => .ended (Nat.zero_le depth) trivial
  | depth, item :: rest => by
      rw [writeErrorOfItems?, heightOfItems, AreShort]
      exact (writes_writeError? depth item).or (writes_writeErrorOfItems? depth rest)

theorem writes_writeErrorOfEntries? :
    (depth : Nat) → (entries : List (Datum × Datum)) →
    Writes depth (heightOfEntries entries) (AreEntriesShort entries)
      (writeErrorOfEntries? depth entries)
  | depth, [] => .ended (Nat.zero_le depth) trivial
  | depth, (key, item) :: rest => by
      rw [writeErrorOfEntries?, heightOfEntries, AreEntriesShort]
      exact ((writes_writeError? depth key).or (writes_writeError? depth item)).or
        (writes_writeErrorOfEntries? depth rest)

end

/-- A value is written if it is not too high and no integer in it is too long. -/
theorem writeError?_eq_none_iff
    (depth : Nat)
    (value : Datum) :
    value.writeError? depth = none ↔ value.height ≤ depth ∧ value.IsShort :=
  (writes_writeError? depth value).eq_none_iff

end Value
end Precedence
