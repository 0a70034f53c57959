/-!
# Floating-point numbers, exactly

A finite double is a whole number of units of some power of two. Everything here is exact
integer arithmetic on that form.

* `Binary64.ofFloat?` takes a finite double apart.
* `Binary64.shortest` finds the decimal with the fewest digits that still denotes the
  same double, and of those the nearest to it.
* `Binary64.equalsInt` compares a double with an unbounded integer.
-/

namespace Precedence

/-- The exact value of a finite double: `mantissa · 2 ^ exponent`, with a sign. -/
structure Binary64 where
  /-- Whether the sign bit is set; zero has a sign as well. -/
  negative : Bool
  mantissa : Nat
  exponent : Int
  /-- Whether the next smaller magnitude is only half as far away as the next larger. -/
  lowerIsNearer : Bool

/-- A decimal number: `digits · 10 ^ exponent`. -/
structure Decimal where
  digits : Nat
  exponent : Int

namespace Binary64

/-- The exact value of a double, unless it is infinite or not a number. -/
def ofFloat? (x : Float) : Option Binary64 :=
  let bits : Nat := x.toBits.toNat
  let negative := bits / Nat.pow 2 63 = 1
  let biased : Nat := bits / Nat.pow 2 52 % Nat.pow 2 11
  let fraction : Nat := bits % Nat.pow 2 52
  if biased = 2047 then
    none
  else if biased = 0 then
    some ⟨negative, fraction, -1074, false⟩
  else
    some ⟨negative, fraction + Nat.pow 2 52, (biased : Int) - 1075,
      fraction = 0 && biased > 1⟩

/-- A ratio of naturals that equals `2 ^ two / 10 ^ ten`. -/
def scale (two ten : Int) : Nat × Nat :=
  (Nat.pow 2 two.toNat * Nat.pow 10 (-ten).toNat,
    Nat.pow 2 (-two).toNat * Nat.pow 10 ten.toNat)

/-- The number of decimal digits of a positive natural. -/
def decimalLength (n : Nat) : Nat :=
  (Nat.toDigits 10 n).length

/--
The power of ten just above a positive magnitude: it is below `10 ^ magnitude x` and not
below a tenth of that. The smallest double is above `10 ^ (-400)`, so 400 places suffice.
-/
def magnitude (x : Binary64) : Int :=
  let (numerator, denominator) := scale x.exponent (-400)
  (decimalLength (x.mantissa * numerator / denominator) : Int) - 400

/--
The multiple of `10 ^ exponent` nearest to the magnitude that still denotes it, if one of
its two neighbours on that grid does. A decimal denotes the double when it lies between
the midpoints to the double's own neighbours, the midpoints included for an even mantissa.
-/
def onGrid? (x : Binary64) (exponent : Int) : Option Nat :=
  let (numerator, denominator) := scale (x.exponent - 2) exponent
  let value := 4 * x.mantissa * numerator
  let low := (4 * x.mantissa - if x.lowerIsNearer then 1 else 2) * numerator
  let high := (4 * x.mantissa + 2) * numerator
  let denotes (k : Nat) : Bool :=
    if x.mantissa % 2 = 0 then
      low ≤ k * denominator && k * denominator ≤ high
    else
      low < k * denominator && k * denominator < high
  let below := value / denominator
  let belowIsNearer :=
    2 * value < (2 * below + 1) * denominator ||
      (2 * value = (2 * below + 1) * denominator && below % 2 = 0)
  let (first, second) := if belowIsNearer then (below, below + 1) else (below + 1, below)
  if denotes first then some first
  else if denotes second then some second
  else none

/-- A decimal of the same value whose digits do not end in zero, zero apart. -/
def trim : Nat → Decimal → Decimal
  | 0, d => d
  | places + 1, d =>
      if d.digits ≠ 0 && d.digits % 10 = 0 then
        trim places ⟨d.digits / 10, d.exponent + 1⟩
      else
        d

/-- The decimal with the fewest digits that denotes the magnitude of the double. -/
def shortest (x : Binary64) : Decimal :=
  if x.mantissa = 0 then
    ⟨0, 0⟩
  else
    let exponents := (List.range 17).map fun (places : Nat) => x.magnitude - (places + 1)
    match exponents.findSome? fun e => (x.onGrid? e).map (Decimal.mk · e) with
    | some d => trim 20 d
    | none => ⟨0, 0⟩

/-- Whether the double is exactly the given integer. -/
def equalsInt (x : Binary64) (n : Int) : Bool :=
  let signed : Int := if x.negative then -(x.mantissa : Int) else x.mantissa
  signed * Int.pow 2 x.exponent.toNat = n * Int.pow 2 (-x.exponent).toNat

end Binary64
end Precedence
