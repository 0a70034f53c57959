import Precedence.Text.Printable

/-!
# Quoted text

The written form of a text inside a message: a pair of quotes around the characters, with
an escape for every character that could be misread.

## Rules

* The quote is the single one, unless the text holds a single quote and no double one.
* The quote in use and the backslash are written behind a backslash.
* Tab, line feed and carriage return are written `\t`, `\n` and `\r`.
* Any other character that is not printable is written by its code point, in lower-case
  hexadecimal digits: two of them behind `\x`, else four behind `\u`, else eight behind
  `\U`.
* All other characters stand for themselves.

A code point that is no character, one half of a surrogate pair, is written like a
character that is not printable.
-/

namespace Precedence
namespace Text

/-- The single quotation mark. -/
def singleQuote : Char := '\x27'

/-- The double quotation mark. -/
def doubleQuote : Char := '\x22'

/-- The backslash, which opens every escape. -/
def backslash : Char := '\x5c'

/-- The quotation mark that a text is written in. -/
def quoteFor (chars : List Char) : Char :=
  if chars.contains singleQuote && !chars.contains doubleQuote then
    doubleQuote
  else
    singleQuote

/-- The lower-case hexadecimal digits of a number, padded with zeros to a width. -/
def hexDigits (width : Nat) (n : Nat) : List Char :=
  let digits := Nat.toDigits 16 n
  List.replicate (width - digits.length) '0' ++ digits

/-- The escape of a code point, in the shortest form that holds it. -/
def codePointEscape (n : Nat) : List Char :=
  if n < 0x100 then
    backslash :: 'x' :: hexDigits 2 n
  else if n < 0x10000 then
    backslash :: 'u' :: hexDigits 4 n
  else
    backslash :: 'U' :: hexDigits 8 n

/-- The written form of one character between a given pair of quotes. -/
def escape (quote : Char) (c : Char) : List Char :=
  if c = quote || c = backslash then [backslash, c]
  else if c = '\t' then [backslash, 't']
  else if c = '\n' then [backslash, 'n']
  else if c = '\r' then [backslash, 'r']
  else if isPrintable c then [c]
  else codePointEscape c.toNat

/-- The written form of a text, quotes included. -/
def quoted (text : String) : String :=
  let chars := text.toList
  let quote := quoteFor chars
  String.ofList (quote :: chars.flatMap (escape quote) ++ [quote])

/-- The character of a code point, if it is one. -/
def charOf? (n : Nat) : Option Char :=
  if n.isValidChar then some (Char.ofNat n) else none

/-- The written form of one code point between a given pair of quotes. -/
def escapeCodePoint (quote : Char) (n : Nat) : List Char :=
  match charOf? n with
  | some c => escape quote c
  | none => codePointEscape n

/-- The written form of a list of code points, quotes included. -/
def quotedCodePoints (codePoints : List Nat) : String :=
  let quote := quoteFor (codePoints.filterMap charOf?)
  String.ofList (quote :: codePoints.flatMap (escapeCodePoint quote) ++ [quote])

end Text
end Precedence
