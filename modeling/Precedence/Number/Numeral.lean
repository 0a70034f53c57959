import Precedence.Text.CharacterClass
import Precedence.Text.Quoted

/-!
# Integer numerals

Reading integers from text and writing them, both with a limit on the number of digits.

## Grammar of a numeral

A numeral is an optional sign followed by decimal digits of any script, where a single
underscore may stand between two digits. A margin of blanks around it is ignored; the
four information separators are not part of that margin.

The digits are counted before what follows them is looked at, so a run of too many digits
is reported as such even when it is followed by junk.
-/

namespace Precedence
namespace Numeral

/-- The number of decimal digits that may be read or written at once. -/
def digitLimit : Nat := 4300

/-- Why a text is not read as an integer, or an integer not written as a text. -/
inductive Error where
  /-- The text is not a numeral of the base. -/
  | malformed (base : Nat) (text : String)
  /-- The numeral has more digits than may be read. -/
  | tooLongToRead (digits : Nat)
  /-- The integer has more digits than may be written. -/
  | tooLongToWrite
deriving DecidableEq

/-- The longest part of the quoted text that a message about a malformed numeral shows. -/
def shownLength : Nat := 200

/-- The wording of an error. -/
def Error.message : Error → String
  | .malformed base text =>
      "invalid literal for int() with base " ++ toString base ++ ": " ++
        String.ofList ((Text.quoted text).toList.take shownLength)
  | .tooLongToRead digits =>
      "Exceeds the limit (" ++ toString digitLimit ++
        " digits) for integer string conversion: value has " ++ toString digits ++
        " digits; use sys.set_int_max_str_digits() to increase the limit"
  | .tooLongToWrite =>
      "Exceeds the limit (" ++ toString digitLimit ++
        " digits) for integer string conversion; " ++
        "use sys.set_int_max_str_digits() to increase the limit"

/-- A blank that may surround a numeral: all of them but the information separators. -/
def isMargin (c : Char) : Bool :=
  Text.isBlank c && !(0x1c ≤ c.toNat && c.toNat ≤ 0x1f)

/-- The separator that may stand between two digits. -/
def separator : Char := '_'

/-- A character that may stand in the body of a numeral. -/
def isBody (c : Char) : Bool :=
  c = separator || (Text.digitValue? c).isSome

/--
The body is well formed when every separator has a digit on both sides. The flag tells
whether the character before the list was a digit.
-/
def separatesDigits : Bool → List Char → Bool
  | afterDigit, [] => afterDigit
  | afterDigit, c :: rest =>
      if c = separator then
        afterDigit && separatesDigits false rest
      else
        separatesDigits true rest

/-- The number whose digits, most significant first, are given. -/
def ofDigits (digits : List Nat) : Nat :=
  digits.foldl (fun value digit => 10 * value + digit) 0

/-- A leading sign, true for minus, and what follows it. -/
def splitSign : List Char → Bool × List Char
  | '-' :: rest => (true, rest)
  | '+' :: rest => (false, rest)
  | chars => (false, chars)

/-- The integer that a numeral stands for. -/
def read (text : String) : Except Error Int :=
  let (negative, chars) := splitSign (text.toList.dropWhile isMargin)
  let body := chars.takeWhile isBody
  let digits := body.filterMap Text.digitValue?
  if !separatesDigits false body then
    .error (.malformed 10 text)
  else if digits.length > digitLimit then
    .error (.tooLongToRead digits.length)
  else if !(chars.dropWhile isBody).all isMargin then
    .error (.malformed 10 text)
  else
    let value : Int := ofDigits digits
    .ok (if negative then -value else value)

/-- The decimal text of an integer, a minus sign in front of a negative one. -/
def decimal (n : Int) : String :=
  toString n

/-- The decimal text of an integer of at most as many digits as may be written. -/
def write (n : Int) : Except Error String :=
  if n.natAbs < Nat.pow 10 digitLimit then
    .ok (decimal n)
  else
    .error .tooLongToWrite

end Numeral
end Precedence
