import Precedence.Number.Binary64
import Precedence.Number.Numeral
import Precedence.Text.Quoted
import Precedence.Value.Basic

/-!
# The literal of a value

How a value is written inside a message: `None`, `True`, `12`, `1.5`, a quoted text, a
list in brackets, a tuple in parentheses and a mapping in braces. A record is written as
the name of its class, followed by its properties in parentheses.

A double is written with the fewest digits that denote it. The notation is positional
when the decimal point falls after the place `-4` and not after the place `16`, with at
least one digit on both sides of the point; otherwise one digit stands in front of the
point and an exponent of at least two digits follows.

## Writing

A literal is written from left to right, and the parts of a value as values of their own.
An integer with too many digits ends the writing, and so does a part that stands in too
many others, one inside the other (`Value.writeError?`).
-/

namespace Precedence

/-- The choices of a notation for doubles. -/
structure FloatNotation where
  /-- Positional notation needs the decimal point after this place … -/
  lowestPoint : Int
  /-- … and not after this one, counted from the first digit. -/
  highestPoint : Int
  /-- The fewest digits of an exponent. -/
  exponentWidth : Nat

/-- The notation of doubles in literals. -/
def FloatNotation.literal : FloatNotation := ⟨-4, 16, 2⟩

namespace FloatNotation

/-- As many zeros as asked for. -/
def zeros (n : Nat) : String :=
  String.ofList (List.replicate n '0')

/-- A decimal whose point stands within or next to its digits. -/
def positional (digits : List Char) (point : Int) : String :=
  if point ≤ 0 then
    "0." ++ zeros (-point).toNat ++ String.ofList digits
  else if digits.length ≤ point.toNat then
    String.ofList digits ++ zeros (point.toNat - digits.length) ++ ".0"
  else
    String.ofList (digits.take point.toNat) ++ "." ++
      String.ofList (digits.drop point.toNat)

/-- A decimal with one digit before the point and an exponent. -/
def scientific (style : FloatNotation) (digits : List Char) (point : Int) : String :=
  let exponent := point - 1
  let sign := if exponent < 0 then "-" else "+"
  let places := toString exponent.natAbs
  let mantissa :=
    match digits with
    | first :: second :: rest => String.ofList (first :: '.' :: second :: rest)
    | few => String.ofList few
  mantissa ++ "e" ++ sign ++ zeros (style.exponentWidth - places.length) ++ places

/-- The text of a double. -/
def render (style : FloatNotation) (x : Float) : String :=
  match Binary64.ofFloat? x with
  | none => if x.isNaN then "nan" else if x < 0 then "-inf" else "inf"
  | some binary =>
      let decimal := binary.shortest
      let digits := Nat.toDigits 10 decimal.digits
      let point := (digits.length : Int) + decimal.exponent
      let magnitude :=
        if style.lowestPoint < point && point ≤ style.highestPoint then
          positional digits point
        else
          style.scientific digits point
      if binary.negative then "-" ++ magnitude else magnitude

end FloatNotation

/-- Items separated by a comma and a blank. -/
def commaSeparated (items : List String) : String :=
  ", ".intercalate items

/-- A class name with the literals of its properties; without any, the name alone. -/
def recordLiteral (className : String) (properties : List String) : String :=
  match properties with
  | [] => className
  | _ => className ++ "(" ++ commaSeparated properties ++ ")"

namespace Value

section Literals

variable {ω : Type} [Objects ω]

mutual

/-- The literal of a value. -/
def literal : Value ω → String
  | null => "None"
  | bool true => "True"
  | bool false => "False"
  | int value => Numeral.decimal value
  | float value => FloatNotation.literal.render value
  | text value => Text.quoted value
  | brokenText codePoints => Text.quotedCodePoints codePoints
  | list items => "[" ++ commaSeparated (literals items) ++ "]"
  | tuple [item] => "(" ++ literal item ++ ",)"
  | tuple items => "(" ++ commaSeparated (literals items) ++ ")"
  | mapping entries => "\x7b" ++ commaSeparated (entryLiterals entries) ++ "\x7d"
  | object value => Objects.literal value

/-- The literals of the items of a list. -/
def literals : List (Value ω) → List String
  | [] => []
  | item :: rest => literal item :: literals rest

/-- The literals of the entries of a mapping. -/
def entryLiterals : List (Value ω × Value ω) → List String
  | [] => []
  | (key, item) :: rest => (literal key ++ ": " ++ literal item) :: entryLiterals rest

end

end Literals

/-! ## Writing -/

/-- Why a literal is not written. -/
inductive WriteError where
  /-- An integer has too many digits. -/
  | tooLong
  /-- Too many values stand in each other. -/
  | tooDeep
deriving DecidableEq

mutual

/--
What ends the writing of a value first, if anything does, where so many values may stand in
each other.
-/
def writeError? : Nat → Datum → Option WriteError
  | 0, _ => some .tooDeep
  | _ + 1, int value => if (Numeral.write value).isOk then none else some .tooLong
  | depth + 1, list items => writeErrorOfItems? depth items
  | depth + 1, tuple items => writeErrorOfItems? depth items
  | depth + 1, mapping entries => writeErrorOfEntries? depth entries
  | _ + 1, _ => none

/-- What ends the writing of the items of a list first. -/
def writeErrorOfItems? (depth : Nat) : List Datum → Option WriteError
  | [] => none
  | item :: rest => (writeError? depth item).or (writeErrorOfItems? depth rest)

/-- What ends the writing of the keys and values of a mapping first. -/
def writeErrorOfEntries? (depth : Nat) : List (Datum × Datum) → Option WriteError
  | [] => none
  | (key, item) :: rest =>
      ((writeError? depth key).or (writeError? depth item)).or (writeErrorOfEntries? depth rest)

end

end Value
end Precedence
