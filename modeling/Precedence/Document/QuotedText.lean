import Precedence.Document.Cursor

/-!
# Scalars in quotes

The text of a scalar goes from its opening quote to its closing one. Lines are folded into
blanks, escapes stand for code points, and the text is therefore a list of code points: an
escape may name one that is no character.
-/

namespace Precedence
namespace Document

/--
The line breaks that follow inside a quoted scalar, blanks around them left out. A line
that begins or ends a document may not stand there.
-/
def quotedBreaks : Nat → Cursor → Attempt (List Char × Cursor)
  | 0, _ => refuse
  | lines + 1, cursor =>
      if cursor.documentMark?.isSome then
        refuse
      else
        let cursor := cursor.skipWhile fun c => c = ' ' || c = '\t'
        match cursor.break? with
        | some (text, cursor) =>
            (quotedBreaks lines cursor).map fun (more, cursor) => (text ++ more, cursor)
        | none => .ok ([], cursor)

/-- The character of an escape of one character. -/
def escaped? : Char → Option Char
  | '0' => some '\x00'
  | 'a' => some '\x07'
  | 'b' => some '\x08'
  | 't' => some '\t'
  | '\t' => some '\t'
  | 'n' => some '\n'
  | 'v' => some '\x0b'
  | 'f' => some '\x0c'
  | 'r' => some '\r'
  | 'e' => some '\x1b'
  | ' ' => some ' '
  | '/' => some '/'
  | 'N' => some '\u0085'
  | '_' => some '\u00a0'
  | 'L' => some '\u2028'
  | 'P' => some '\u2029'
  | c => if c = '\x22' || c = '\x5c' then some c else none

/-- The number of hexadecimal digits behind an escape by code point. -/
def escapeWidth? : Char → Option Nat
  | 'x' => some 2
  | 'u' => some 4
  | 'U' => some 8
  | _ => none

/-- The value of a hexadecimal digit. -/
def hexValue? (c : Char) : Option Nat :=
  if c.isDigit then some (c.toNat - '0'.toNat)
  else if 'a' ≤ c && c ≤ 'f' then some (c.toNat - 'a'.toNat + 10)
  else if 'A' ≤ c && c ≤ 'F' then some (c.toNat - 'A'.toNat + 10)
  else none

/-- The number that is written in some hexadecimal digits. -/
def hexNumber? (digits : List Char) : Option Nat := do
  let values ← digits.mapM hexValue?
  return values.foldl (fun value digit => 16 * value + digit) 0

/-- The code points of some characters. -/
def codePoints (chars : List Char) : List Nat :=
  chars.map Char.toNat

/-- The number of code points. -/
def codePointCount : Nat := 0x110000

/-- A code point that is written in a number of hexadecimal digits behind the cursor. -/
def escapedCodePoint (width : Nat) (cursor : Cursor) : Attempt (List Nat × Cursor) := do
  let digits := cursor.rest.take width
  let number ← Attempt.ofOption (hexNumber? digits)
  let behind := cursor.skip width
  if digits.length < width then refuse
  else if number < codePointCount then return ([number], behind)
  else .error (.noCodePoint number behind.index)

/-- What an escape stands for, from behind its backslash. -/
def escape (cursor : Cursor) : Attempt (List Nat × Cursor) := do
  let c ← Attempt.ofOption (cursor.peek 0)
  match escaped? c, escapeWidth? c, cursor.break? with
  | some c, _, _ => return ([c.toNat], cursor.step)
  | none, some width, _ => escapedCodePoint width cursor.step
  | none, none, some (_, cursor) =>
      let (text, cursor) ← quotedBreaks cursor.rest.length.succ cursor
      return (codePoints text, cursor)
  | none, none, none => refuse

/--
A piece of a quoted scalar that begins with the given character: a quote that is written
twice, an escape, blanks, a fold of lines or a single character.
-/
def quotedPiece (quote : Char) (cursor : Cursor) (c : Char) : Attempt (List Nat × Cursor) := do
  if c = quote then
    return ([quote.toNat], cursor.skip 2)
  else if quote = '\x22' && c = '\x5c' then
    escape cursor.step
  else if isGap c then
    let blanks := cursor.rest.takeWhile fun c => c = ' ' || c = '\t'
    let behind := cursor.skip blanks.length
    match behind.break? with
    | some (first, behind) =>
        let (more, behind) ← quotedBreaks behind.rest.length.succ behind
        return (codePoints (fold first more), behind)
    | none => return (codePoints blanks, behind)
  else
    return ([c.toNat], cursor.step)

/--
The text of a quoted scalar up to its closing quote, and the place behind that. In single
quotes a quote is written twice; in double quotes a backslash begins an escape.
-/
def quotedFrom (quote : Char) : Nat → Cursor → Attempt (List Nat × Cursor)
  | 0, _ => refuse
  | steps + 1, cursor => do
      let c ← Attempt.ofOption (cursor.peek 0)
      let isDoubled := quote = '\x27' && cursor.peek 1 = some quote
      if c = quote && !isDoubled then
        return ([], cursor.step)
      else
        let (text, cursor) ← quotedPiece quote cursor c
        let (more, cursor) ← quotedFrom quote steps cursor
        return (text ++ more, cursor)

end Document
end Precedence
