import Precedence.Document.Fault
import Precedence.Value.Basic

/-!
# Plain scalars

A scalar that is written without quotes may denote something other than its text. The
forms are those of YAML 1.1:

* nothing: the empty scalar, `~` and `null`;
* a truth value: `yes`, `true` and `on`, `no`, `false` and `off`;
* an integer: decimal, binary behind `0b`, octal behind `0`, hexadecimal behind `0x`, or
  in base sixty with colons between the places;
* a double: decimal with a point and perhaps a signed exponent, in base sixty with a
  point, infinity `.inf`, and `.nan`.

Words are written in lower case, in upper case or capitalized. Underscores may stand
between digits. `=` and `<<` denote things that are not values here. All other scalars
denote their text.

A scalar may have the form of a number and yet not be read as one: digits of a base may be
announced and left out, and a decimal integer may have more of them than may be read.
-/

namespace Precedence
namespace Document

/-- The three ways to write a word. -/
def spellings (word : String) : List String :=
  [word, word.capitalize, word.map Char.toUpper]

/-- Whether a scalar is one of some words, in one of their spellings. -/
def isWord (words : List String) (scalar : String) : Bool :=
  words.any fun word => (spellings word).contains scalar

/-- The character that may stand between digits and means nothing. -/
def isFiller (c : Char) : Bool :=
  c = '_'

/-- Whether the number of this value is written with the digit in a base of at most 16. -/
def digitIn? (base : Nat) (c : Char) : Option Nat :=
  let value :=
    if c.isDigit then c.toNat - '0'.toNat
    else if 'a' ≤ c && c ≤ 'f' then c.toNat - 'a'.toNat + 10
    else if 'A' ≤ c && c ≤ 'F' then c.toNat - 'A'.toNat + 10
    else base
  if value < base then some value else none

/-- Whether all characters are digits of a base or fillers. -/
def areDigits (base : Nat) (chars : List Char) : Bool :=
  chars.all fun c => isFiller c || (digitIn? base c).isSome

/-- The number that some digits of a base stand for, fillers left out. -/
def numberIn (base : Nat) (chars : List Char) : Nat :=
  (chars.filterMap (digitIn? base)).foldl (fun value digit => base * value + digit) 0

/-- The parts of a list between the occurrences of a character. -/
def splitAt (separator : Char) : List Char → List (List Char)
  | [] => [[]]
  | c :: rest =>
      match splitAt separator rest with
      | [] => [[c]]
      | part :: parts =>
          if c = separator then [] :: part :: parts else (c :: part) :: parts

/-- A place in base sixty below the highest one: a number below sixty. -/
def isSexagesimalPlace : List Char → Bool
  | [c] => c.isDigit
  | [c, d] => '0' ≤ c && c ≤ '5' && d.isDigit
  | _ => false

/-- A decimal number: a digit, and then digits and fillers. -/
def isDecimal : List Char → Bool
  | [] => false
  | c :: rest => c.isDigit && areDigits 10 rest

/-- The number of the digits of a base, fillers left out. There has to be one. -/
def readIn (base : Nat) (chars : List Char) : Attempt Nat :=
  if chars.all isFiller then
    .error (.numeral (.malformed base ""))
  else
    .ok (numberIn base chars)

/-- The number of some decimal digits, fillers left out, if there are not too many. -/
def readDecimal (chars : List Char) : Attempt Nat :=
  let digits := chars.filter Char.isDigit
  if digits.length > Numeral.digitLimit then
    .error (.numeral (.tooLongToRead digits.length))
  else
    .ok (numberIn 10 digits)

/-- The number with some places in base sixty, the highest first. -/
def readSexagesimal (places : List (List Char)) : Attempt Nat := do
  let places ← places.mapM readDecimal
  return places.foldl (fun value place => 60 * value + place) 0

/-- The number of an unsigned scalar, if it has the form of an integer. -/
def magnitude? : List Char → Option (Attempt Nat)
  | [] => none
  | '0' :: 'b' :: digit :: rest =>
      if areDigits 2 (digit :: rest) then some (readIn 2 (digit :: rest)) else none
  | '0' :: 'x' :: digit :: rest =>
      if areDigits 16 (digit :: rest) then some (readIn 16 (digit :: rest)) else none
  | '0' :: rest => if areDigits 8 rest then some (.ok (numberIn 8 rest)) else none
  | chars =>
      match splitAt ':' chars with
      | first :: places =>
          if isDecimal first && places.all isSexagesimalPlace then
            some (readSexagesimal (first :: places))
          else
            none
      | [] => none

/-- A sign, true for minus, and what follows it. -/
def splitSign : List Char → Bool × List Char
  | '-' :: rest => (true, rest)
  | '+' :: rest => (false, rest)
  | chars => (false, chars)

/-- The integer of a scalar, if it has the form of one. -/
def integer? (chars : List Char) : Option (Attempt Int) :=
  let (negative, chars) := splitSign chars
  (magnitude? chars).map fun outcome =>
    outcome.map fun value => if negative then -(value : Int) else value

/-- The power of ten behind a decimal: none, or a signed exponent. -/
def exponent? : List Char → Option Int
  | [] => some 0
  | mark :: sign :: digit :: rest =>
      if (mark = 'e' || mark = 'E') && (digit :: rest).all Char.isDigit then
        if sign = '-' then some (-(numberIn 10 (digit :: rest) : Int))
        else if sign = '+' then some (numberIn 10 (digit :: rest))
        else none
      else
        none
  | _ => none

/-- The double nearest to `digits · 10 ^ exponent`. -/
def scientific (digits : Nat) (exponent : Int) : Float :=
  Float.ofScientific digits (exponent < 0) exponent.natAbs

/-- Numbers from here on are too large to be rounded to a double. -/
def doubleLimit : Nat := Nat.pow 2 1024

/--
The sum of places in base sixty, the lowest first, added one by one to what has been added
before; the first argument is the weight of the lowest one.
-/
def addPlaces (weight : Nat) (sum : Float) : List Float → Attempt Float
  | [] => .ok sum
  | place :: places =>
      if weight < doubleLimit then
        addPlaces (60 * weight) (sum + place * scientific weight 0) places
      else
        .error .tooManyPlaces

/-- The double of an unsigned scalar with a point, if it has the form of one. -/
def pointed? (chars : List Char) : Option (Attempt Float) :=
  let whole := chars.takeWhile (· ≠ '.')
  match chars.dropWhile (· ≠ '.') with
  | [] => none
  | _ :: behind =>
      let isPlace (c : Char) : Bool := c.isDigit || isFiller c
      let fraction := behind.takeWhile isPlace
      let decimals := (fraction.filter Char.isDigit).length
      let lowest (digits : List Char) (exponent : Int) : Float :=
        scientific (numberIn 10 (digits ++ fraction)) (exponent - decimals)
      match exponent? (behind.dropWhile isPlace), (splitAt ':' whole).reverse with
      | some exponent, [digits] =>
          if isDecimal digits || (digits.isEmpty && isDecimal fraction) then
            some (.ok (lowest digits exponent))
          else
            none
      | some _, digits :: higher =>
          let places := (digits :: higher).dropLast
          let isFirst := (higher.getLast?.any isDecimal)
          if behind.all isPlace && isFirst && places.all isSexagesimalPlace then
            let above := higher.map fun place => scientific (numberIn 10 place) 0
            some (addPlaces 1 0.0 (lowest digits 0 :: above))
          else
            none
      | _, _ => none

/-- The double of a scalar, if it has the form of one. -/
def double? (chars : List Char) : Option (Attempt Float) :=
  let (negative, unsigned) := splitSign chars
  let signed := unsigned.length < chars.length
  let magnitude :=
    if isWord ["inf"] (String.ofList (unsigned.drop 1)) && unsigned.head? = some '.' then
      some (.ok (1.0 / 0.0))
    else if signed && unsigned.head? = some '.' then
      none
    else
      pointed? unsigned
  match magnitude with
  | some outcome => some (outcome.map fun value => if negative then -value else value)
  | none =>
      if [".nan", ".NaN", ".NAN"].contains (String.ofList chars) then
        some (.ok (0.0 / 0.0))
      else
        none

/-- The value of a plain scalar. -/
def plainValue (scalar : String) : Attempt Datum :=
  let chars := scalar.toList
  if scalar = "=" || scalar = "<<" then refuse
  else if scalar = "" || scalar = "~" || isWord ["null"] scalar then .ok .null
  else if isWord ["yes", "true", "on"] scalar then .ok (.bool true)
  else if isWord ["no", "false", "off"] scalar then .ok (.bool false)
  else
    match double? chars, integer? chars with
    | some outcome, _ => outcome.map .float
    | none, some outcome => outcome.map .int
    | none, none => .ok (.text scalar)

end Document
end Precedence
