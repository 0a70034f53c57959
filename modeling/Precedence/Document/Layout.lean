import Precedence.Document.PlainText
import Precedence.Document.QuotedText

/-!
# From text to marks

Reads the layout of a document: which columns open and close a block, which scalars turn
out to be keys, and where comments, folds and escapes are.

## Blocks

A block is opened by an item or a key that stands further to the right than the block
around it, and closed by the first thing that stands further to the left. Between brackets
and braces indentation means nothing.

## Keys

Whether a scalar is a key is seen only at the colon behind it. A *slot* is therefore kept
in front of everything that may turn out to be a key, and filled when it does. A key ends
on the line that it begins on and is not longer than 1024 characters. A scalar that begins
in the column of its mapping has to be a key.

## Faults

A text has no layout where a tab is used as indentation, where nothing begins with the
next character, where a quote is not closed, an escape not known or a colon written where
no value may stand. Anchors, references, tags, directives and block scalars are not part
of these documents. An escape of a number that is no code point is a fault of another kind.

The text is read no further ahead than it takes to tell keys from other things. So what
stands in front of the first fault may have been acted on before the fault is come upon,
and only what may still turn out to be a key has not; the marks of a text with a fault are
those in front of the first possible key.
-/

namespace Precedence
namespace Document

/-- Something that is a key if a colon follows. -/
structure PossibleKey where
  /-- The slot in front of it. -/
  slot : Nat
  /-- Whether it stands where nothing but a key may. -/
  required : Bool
  index : Nat
  line : Nat
  column : Nat

/-- How far the layout of a text has been read. -/
structure Layout where
  cursor : Cursor
  /-- The marks so far, in slots; an empty slot may still be filled. -/
  slots : Array (List Mark)
  /-- The column of the innermost block; `-1` outside of all blocks. -/
  indent : Int
  /-- The columns of the blocks around it, the nearest first. -/
  outer : List Int
  /-- The possible key on each level of brackets, the innermost first. -/
  keys : List (Option PossibleKey)
  /-- Whether a key may begin here. -/
  keyAllowed : Bool
  /-- Whether the end of the text has been come upon. -/
  isAtEnd : Bool

namespace Layout

/-- Nothing has been read yet. -/
def start (chars : List Char) : Layout :=
  ⟨.ofChars chars, #[], -1, [], [none], true, false⟩

/-- Whether the place is between brackets or braces. -/
def inFlow (layout : Layout) : Bool :=
  layout.keys.length > 1

/-- Add a mark. -/
def push (layout : Layout) (mark : Mark) : Layout :=
  { layout with slots := layout.slots.push [mark] }

/-- Move on by some characters. -/
def skip (layout : Layout) (count : Nat) : Layout :=
  { layout with cursor := layout.cursor.skip count }

/-- The possible key on the current level. -/
def possibleKey (layout : Layout) : Option PossibleKey :=
  layout.keys.head?.join

/-- Put a possible key, or none, on the current level. -/
def setKey (layout : Layout) (key : Option PossibleKey) : Layout :=
  { layout with keys := key :: layout.keys.tail }

/-- Give up the possible key on the current level, unless nothing else may stand there. -/
def forgetKey (layout : Layout) : Attempt Layout :=
  if layout.possibleKey.any (·.required) then refuse else .ok (layout.setKey none)

/-- Note that what follows may be a key. -/
def saveKey (layout : Layout) : Attempt Layout :=
  if layout.keyAllowed then do
    let layout ← layout.forgetKey
    let cursor := layout.cursor
    let required := !layout.inFlow && layout.indent == cursor.column
    let key : PossibleKey :=
      ⟨layout.slots.size, required, cursor.index, cursor.line, cursor.column⟩
    return { layout.setKey (some key) with slots := layout.slots.push [] }
  else
    return layout

/-- The longest text that may be a key. -/
def keyLength : Nat := 1024

/-- Whether a possible key is out of reach from a place. -/
def isStale (cursor : Cursor) (key : PossibleKey) : Bool :=
  key.line ≠ cursor.line || cursor.index - key.index > keyLength

/-- Give up the possible keys that are out of reach, on all levels. -/
def dropStale (layout : Layout) : Attempt Layout := do
  let stale (key : Option PossibleKey) : Bool := key.any (isStale layout.cursor)
  if layout.keys.any fun key => stale key && key.any (·.required) then
    refuse
  else
    return { layout with keys := layout.keys.map fun key => if stale key then none else key }

/-- Close the blocks that are indented further than a column. -/
def closeBlocks (column : Int) : List Int → Layout → Layout
  | [], layout => layout
  | around :: outer, layout =>
      if layout.indent > column then
        closeBlocks column outer { layout.push .blockEnd with indent := around, outer := outer }
      else
        layout

/-- Close the blocks that end at a column, outside of brackets. -/
def unwind (layout : Layout) (column : Int) : Layout :=
  if layout.inFlow then layout else closeBlocks column layout.outer layout

/-- Open a block at a column that is further to the right than the innermost one. -/
def openBlock (layout : Layout) (column : Nat) (mark : Mark) : Layout :=
  if layout.indent < column then
    { layout.push mark with indent := column, outer := layout.indent :: layout.outer }
  else
    layout

/-- Read a line that begins or ends a document. -/
def readDocumentMark (layout : Layout) (mark : Mark) : Attempt Layout := do
  let layout ← (layout.unwind (-1)).forgetKey
  return ({ layout with keyAllowed := false }.push mark).skip 3

/-- Read an opening bracket or brace. -/
def readOpening (layout : Layout) (mark : Mark) : Attempt Layout := do
  let layout ← layout.saveKey
  return ({ layout with keys := none :: layout.keys, keyAllowed := true }.push mark).skip 1

/-- Read a closing bracket or brace. -/
def readClosing (layout : Layout) (mark : Mark) : Attempt Layout := do
  let layout ← layout.forgetKey
  if layout.inFlow then
    return ({ layout with keys := layout.keys.tail, keyAllowed := false }.push mark).skip 1
  else
    refuse

/-- Read a comma. -/
def readComma (layout : Layout) : Attempt Layout := do
  let layout ← layout.forgetKey
  return ({ layout with keyAllowed := true }.push .comma).skip 1

/--
Read the hyphen in front of an item. Between brackets it opens no block; it is out of place
there, which is seen when the marks are put together.
-/
def readItem (layout : Layout) : Attempt Layout := do
  if !layout.inFlow && !layout.keyAllowed then
    refuse
  else
    let opened :=
      if layout.inFlow then layout
      else layout.openBlock layout.cursor.column .sequenceStart
    let layout ← opened.forgetKey
    return ({ layout with keyAllowed := true }.push .item).skip 1

/-- Read the question mark in front of a key. -/
def readKey (layout : Layout) : Attempt Layout := do
  if !layout.inFlow && !layout.keyAllowed then
    refuse
  else
    let opened :=
      if layout.inFlow then layout
      else layout.openBlock layout.cursor.column .mappingStart
    let layout ← opened.forgetKey
    return ({ layout with keyAllowed := !layout.inFlow }.push .key).skip 1

/-- Read the colon in front of a value; the possible key on its level becomes a key. -/
def readValue (layout : Layout) : Attempt Layout :=
  match layout.possibleKey with
  | some key =>
      let opens := !layout.inFlow && layout.indent < key.column
      let marks := if opens then [.mappingStart, .key] else [.key]
      let layout := { layout with
        slots := layout.slots.setIfInBounds key.slot marks
        indent := if opens then key.column else layout.indent
        outer := if opens then layout.indent :: layout.outer else layout.outer
        keyAllowed := false }
      .ok (((layout.setKey none).push .value).skip 1)
  | none =>
      if !layout.inFlow && !layout.keyAllowed then
        refuse
      else
        let layout :=
          if layout.inFlow then layout
          else layout.openBlock layout.cursor.column .mappingStart
        .ok (({ layout with keyAllowed := !layout.inFlow }.push .value).skip 1)

/-- Read a quoted scalar. -/
def readQuoted (layout : Layout) (quote : Char) : Attempt Layout := do
  let layout ← layout.saveKey
  let (text, cursor) ← quotedFrom quote layout.cursor.rest.length.succ layout.cursor.step
  return { layout.push (.quoted text) with
    cursor := cursor, keyAllowed := false }

/-- Read a plain scalar. -/
def readPlain (layout : Layout) : Attempt Layout := do
  let layout ← layout.saveKey
  let (text, crossed, cursor) :=
    plainFrom layout.inFlow layout.indent layout.cursor.rest.length.succ [] false layout.cursor
  return { layout.push (.plain (String.ofList text)) with
    cursor := cursor, keyAllowed := crossed }

/-- Read the next mark, which begins with the given character. -/
def readMark (layout : Layout) (c : Char) : Attempt Layout :=
  let cursor := layout.cursor
  let standsAlone := endsWord (cursor.peek 1)
  if cursor.column = 0 && c = '%' then refuse
  else
    match (if cursor.column = 0 then cursor.documentMark? else none) with
    | some mark => layout.readDocumentMark mark
    | none =>
        if c = '[' then layout.readOpening .openList
        else if c = '\x7b' then layout.readOpening .openMapping
        else if c = ']' then layout.readClosing .closeList
        else if c = '\x7d' then layout.readClosing .closeMapping
        else if c = ',' then layout.readComma
        else if c = '-' && standsAlone then layout.readItem
        else if c = '?' && (layout.inFlow || standsAlone) then layout.readKey
        else if c = ':' && (layout.inFlow || standsAlone) then layout.readValue
        else if c = '\x27' || c = '\x22' then layout.readQuoted c
        else if beginsPlain layout.inFlow cursor then layout.readPlain
        else refuse

/-- Move to the next mark, or to the end, and read it. -/
def readNext (layout : Layout) : Attempt Layout := do
  let (crossed, cursor) := layout.cursor.toNextMark layout.cursor.rest.length.succ false
  let keyAllowed := layout.keyAllowed || (crossed && !layout.inFlow)
  let layout ← { layout with cursor := cursor, keyAllowed := keyAllowed }.dropStale
  let layout := layout.unwind cursor.column
  match cursor.peek 0 with
  | none => return { ← (layout.unwind (-1)).forgetKey with isAtEnd := true }
  | some c => layout.readMark c

/-- The marks in front of the first possible key. -/
def settled (layout : Layout) : List Mark :=
  let slots := layout.keys.filterMap (Option.map PossibleKey.slot)
  (layout.slots.toList.take (slots.foldl min layout.slots.size)).flatten

/-- The marks of a text with a fault that was come upon behind a place. -/
def brokenBy (layout : Layout) (fault : Fault) : List Mark :=
  layout.settled ++ [.broken fault]

/-- The marks of the whole text. The first argument bounds the number of marks to read. -/
def marksFrom : Nat → Layout → List Mark
  | 0, layout => layout.brokenBy .malformed
  | steps + 1, layout =>
      match layout.dropStale with
      | .error fault => layout.brokenBy fault
      | .ok layout =>
          match layout.readNext with
          | .error fault => layout.brokenBy fault
          | .ok next =>
              if next.isAtEnd then next.slots.toList.flatten else marksFrom steps next

end Layout

/-- A character that may stand in the text of a document. -/
def isAllowed (c : Char) : Bool :=
  let n := c.toNat
  n = 0x09 || n = 0x0a || n = 0x0d || (0x20 ≤ n && n ≤ 0x7e) || n = 0x85 ||
    (0xa0 ≤ n && n ≤ 0xd7ff) || (0xe000 ≤ n && n ≤ 0xfffd) || 0x10000 ≤ n

/-- The text without a byte-order mark at its beginning. -/
def withoutByteOrderMark (cursor : Cursor) : Cursor :=
  if cursor.peek 0 = some '\ufeff' then cursor.step else cursor

/-- The number of characters that a text is checked by, after the first two pieces. -/
def pieceLength : Nat := 4096

/-- The number of characters that have been checked when some of them have been read. -/
def checkedLength (read : Nat) : Nat :=
  max 2 ((read + pieceLength - 1) / pieceLength) * pieceLength

/--
The part of a text that is checked for characters that may not stand in it: the whole of
it, unless a number that is no code point ends the reading.
-/
def checkedPart (chars : List Char) (marks : List Mark) : List Char :=
  match marks.getLast? with
  | some (.broken (.noCodePoint _ place)) => chars.take (checkedLength place)
  | _ => chars

/-- The marks of a text. -/
def marksOf (chars : List Char) : List Mark :=
  let begun := Layout.start chars
  let begun := { begun with cursor := withoutByteOrderMark begun.cursor }
  let marks := begun.marksFrom (chars.length + 2)
  if (checkedPart chars marks).all isAllowed then marks else [.broken .malformed]

end Document
end Precedence
