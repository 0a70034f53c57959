import Precedence.Document.Mark

/-!
# Places in a text

A cursor is a place in the text of a document: what is still to be read, with the number of
characters, the line and the column that have been reached. Going on by a character is the
only way to move it, so the line and the column always are those of the place.
-/

namespace Precedence
namespace Document

/-- A character that ends a line. -/
def isBreak (c : Char) : Bool :=
  c = '\n' || c = '\r' || c.toNat = 0x85 || c.toNat = 0x2028 || c.toNat = 0x2029

/-- A character that separates words. -/
def isGap (c : Char) : Bool :=
  c = ' ' || c = '\t' || isBreak c

/-- Whether a word may end in front of what follows. -/
def endsWord : Option Char → Bool
  | none => true
  | some c => isGap c

/-- A place in the text of a document. -/
structure Cursor where
  rest : List Char
  index : Nat
  line : Nat
  column : Nat

namespace Cursor

/-- The place at the beginning of a text. -/
def ofChars (chars : List Char) : Cursor :=
  ⟨chars, 0, 0, 0⟩

/-- The character at some distance. -/
def peek (cursor : Cursor) (distance : Nat) : Option Char :=
  cursor.rest[distance]?

/-- The place behind the next character. A byte-order mark takes no column. -/
def step (cursor : Cursor) : Cursor :=
  match cursor.rest with
  | [] => cursor
  | c :: rest =>
      if isBreak c && !(c = '\r' && rest.head? = some '\n') then
        ⟨rest, cursor.index + 1, cursor.line + 1, 0⟩
      else if c.toNat = 0xfeff then
        ⟨rest, cursor.index + 1, cursor.line, cursor.column⟩
      else
        ⟨rest, cursor.index + 1, cursor.line, cursor.column + 1⟩

/-- The place some characters further on. -/
def skip : Nat → Cursor → Cursor
  | 0, cursor => cursor
  | count + 1, cursor => skip count cursor.step

/-- The place behind all characters of a class that follow. -/
def skipWhile (inClass : Char → Bool) (cursor : Cursor) : Cursor :=
  cursor.skip (cursor.rest.takeWhile inClass).length

/-- Whether the next character is a given one. -/
def isAt (cursor : Cursor) (c : Char) : Bool :=
  cursor.peek 0 = some c

/-- The text of a line break that follows, and the place behind it. -/
def break? (cursor : Cursor) : Option (List Char × Cursor) :=
  match cursor.rest with
  | '\r' :: '\n' :: _ => some (['\n'], cursor.skip 2)
  | c :: _ =>
      if c.toNat = 0x2028 || c.toNat = 0x2029 then some ([c], cursor.step)
      else if isBreak c then some (['\n'], cursor.step)
      else none
  | [] => none

/-- The document mark that follows: three hyphens or three dots that are a whole word. -/
def documentMark? (cursor : Cursor) : Option Mark :=
  if endsWord (cursor.peek 3) then
    match cursor.rest with
    | '-' :: '-' :: '-' :: _ => some .documentStart
    | '.' :: '.' :: '.' :: _ => some .documentEnd
    | _ => none
  else
    none

/--
The place of the next mark, behind blanks, comments and line breaks, and whether a line
break was among them. The first argument bounds the number of lines.
-/
def toNextMark : Nat → Bool → Cursor → Bool × Cursor
  | 0, crossed, cursor => (crossed, cursor)
  | lines + 1, crossed, cursor =>
      let cursor := cursor.skipWhile (· = ' ')
      let cursor := if cursor.isAt '#' then cursor.skipWhile (!isBreak ·) else cursor
      match cursor.break? with
      | some (_, cursor) => toNextMark lines true cursor
      | none => (crossed, cursor)

end Cursor

/-- What a line break and the breaks behind it stand for: one break alone is a blank. -/
def fold (first : List Char) (more : List Char) : List Char :=
  if first ≠ ['\n'] then first ++ more
  else if more.isEmpty then [' ']
  else more

end Document
end Precedence
