import Precedence.Number.Binary64
import Precedence.Value.Basic

/-!
# Equality of values

Values are compared by what they denote. A truth value counts as the number zero or one,
and numbers of different kinds are equal when they are the same number; texts, lists and
tuples are compared item by item; the order of a mapping's entries does not matter; and
objects are asked themselves.
-/

namespace Precedence

/-- A number, exactly. -/
inductive Number where
  | int (value : Int)
  | float (value : Float)

/-- Numbers are equal when they have the same value. -/
def Number.equal : Number → Number → Bool
  | int a, int b => a == b
  | float x, float y => x == y
  | int n, float x => (Binary64.ofFloat? x).any (·.equalsInt n)
  | float x, int n => (Binary64.ofFloat? x).any (·.equalsInt n)

namespace Value

variable {ω : Type}

/-- The number that a value counts as. -/
def number? : Value ω → Option Number
  | bool value => some (.int (if value then 1 else 0))
  | int value => some (.int value)
  | float value => some (.float value)
  | _ => none

/-- Equality of two values that have no parts. -/
def equalAtoms (a b : Value ω) : Bool :=
  match a.number?, b.number? with
  | some m, some n => m.equal n
  | _, _ => false

variable [Objects ω]

mutual

/-- Equality of values. -/
def equal : Value ω → Value ω → Bool
  | null, null => true
  | text a, text b => a == b
  | brokenText a, brokenText b => a == b
  | list items, list others => equalItems items others
  | tuple items, tuple others => equalItems items others
  | mapping entries, mapping others =>
      entries.length == others.length && equalEntries entries others
  | object a, object b => Objects.equal a b
  | a, b => equalAtoms a b

/-- Equality of lists, item by item. -/
def equalItems : List (Value ω) → List (Value ω) → Bool
  | [], [] => true
  | item :: rest, other :: others => equal item other && equalItems rest others
  | _, _ => false

/-- Whether each entry of a mapping has an equal one in another mapping. -/
def equalEntries : List (Value ω × Value ω) → List (Value ω × Value ω) → Bool
  | [], _ => true
  | (key, item) :: rest, others =>
      (others.any fun other => equal key other.1 && equal item other.2) &&
        equalEntries rest others

end

end Value
end Precedence
