import Precedence.Document.Construction
import Precedence.Document.Layout

/-!
# From marks to a value

A document is one content: a scalar, a sequence of items or a mapping of keys to values,
where the parts of a sequence or a mapping are contents again. What is left out between
the marks is nothing. A text without any content is the value nothing, and a text has at
most one document.
-/

namespace Precedence
namespace Document

/-- Something that was read from the first marks, with the marks that remain. -/
abbrev Remaining (α : Type) := α × List Mark

/-- An entry of a mapping. -/
abbrev Entry := Content × Content

/-- The first mark is out of place, or the text goes no further. -/
def outOfPlace {α : Type} : List Mark → Attempt α
  | .broken fault :: _ => .error fault
  | _ => refuse

/-- Whether the marks begin with one of some given ones. -/
def beginsWith (options : List Mark) (marks : List Mark) : Bool :=
  marks.head?.any options.contains

mutual

/--
The content at the beginning of some marks. A sequence may be written without indentation
of its own where the flag says so. The first argument bounds the depth of the reading.
-/
def readContent (unindented : Bool) : Nat → List Mark → Attempt (Remaining Content)
  | 0, _ => refuse
  | fuel + 1, marks =>
      match marks with
      | .plain text :: rest => .ok (.plain text, rest)
      | .quoted codePoints :: rest => .ok (.quoted codePoints, rest)
      | .openList :: rest => do
          let (items, rest) ← readListItems fuel true rest
          return (.sequence items, rest)
      | .openMapping :: rest => do
          let (entries, rest) ← readBracedEntries fuel true rest
          return (.ofEntries entries, rest)
      | .sequenceStart :: rest => do
          let (items, rest) ← readItems fuel rest
          return (.sequence items, rest)
      | .mappingStart :: rest => do
          let (entries, rest) ← readEntries fuel rest
          return (.ofEntries entries, rest)
      | .item :: rest =>
          if unindented then do
            let (items, rest) ← readUnindentedItems fuel (.item :: rest)
            return (.sequence items, rest)
          else
            refuse
      | marks => outOfPlace marks

/-- A content, unless one of some given marks follows, which leave nothing in its place. -/
def readOptional (unindented : Bool) (ends : List Mark) :
    Nat → List Mark → Attempt (Remaining Content)
  | 0, _ => refuse
  | fuel + 1, marks =>
      if beginsWith ends marks then
        .ok (.missing, marks)
      else
        readContent unindented fuel marks

/-- The items of a sequence up to the end of its block. -/
def readItems : Nat → List Mark → Attempt (Remaining (List Content))
  | 0, _ => refuse
  | fuel + 1, marks =>
      match marks with
      | .blockEnd :: rest => .ok ([], rest)
      | .item :: rest => do
          let (item, rest) ← readOptional false [.item, .blockEnd] fuel rest
          let (items, rest) ← readItems fuel rest
          return (item :: items, rest)
      | marks => outOfPlace marks

/-- The items of a sequence in the column of the mapping that it is a value of. -/
def readUnindentedItems : Nat → List Mark → Attempt (Remaining (List Content))
  | 0, _ => refuse
  | fuel + 1, marks =>
      match marks with
      | .item :: rest => do
          let (item, rest) ← readOptional false [.item, .key, .value, .blockEnd] fuel rest
          let (items, rest) ← readUnindentedItems fuel rest
          return (item :: items, rest)
      | .broken fault :: _ => .error fault
      | marks => .ok ([], marks)

/-- The entries of a mapping up to the end of its block. -/
def readEntries : Nat → List Mark → Attempt (Remaining (List Entry))
  | 0, _ => refuse
  | fuel + 1, marks =>
      match marks with
      | .blockEnd :: rest => .ok ([], rest)
      | .key :: rest => do
          let (key, rest) ← readOptional true [.key, .value, .blockEnd] fuel rest
          let (item, rest) ← readEntryValue true [.key, .value, .blockEnd] fuel rest
          let (entries, rest) ← readEntries fuel rest
          return ((key, item) :: entries, rest)
      | marks => outOfPlace marks

/-- The value of an entry behind its key, where nothing is written if it is left out. -/
def readEntryValue (unindented : Bool) (ends : List Mark) :
    Nat → List Mark → Attempt (Remaining Content)
  | 0, _ => refuse
  | fuel + 1, marks =>
      match marks with
      | .value :: rest => readOptional unindented ends fuel rest
      | .broken fault :: _ => .error fault
      | marks => .ok (.missing, marks)

/-- The items of a list in brackets; the flag tells whether an item may begin at once. -/
def readListItems : Nat → Bool → List Mark → Attempt (Remaining (List Content))
  | 0, _, _ => refuse
  | fuel + 1, first, marks =>
      match marks, first with
      | .closeList :: rest, _ => .ok ([], rest)
      | .comma :: .closeList :: rest, false => .ok ([], rest)
      | .comma :: rest, false => readListItems fuel true rest
      | .key :: rest, true => do
          let (key, rest) ← readOptional false [.value, .comma, .closeList] fuel rest
          let (item, rest) ← readEntryValue false [.comma, .closeList] fuel rest
          let (items, rest) ← readListItems fuel false rest
          return (.ofEntries [(key, item)] :: items, rest)
      | marks, true => do
          let (item, rest) ← readContent false fuel marks
          let (items, rest) ← readListItems fuel false rest
          return (item :: items, rest)
      | marks, false => outOfPlace marks

/-- The entries of a mapping in braces; the flag tells whether one may begin at once. -/
def readBracedEntries : Nat → Bool → List Mark → Attempt (Remaining (List Entry))
  | 0, _, _ => refuse
  | fuel + 1, first, marks =>
      match marks, first with
      | .closeMapping :: rest, _ => .ok ([], rest)
      | .comma :: .closeMapping :: rest, false => .ok ([], rest)
      | .comma :: rest, false => readBracedEntries fuel true rest
      | .key :: rest, true => do
          let (key, rest) ← readOptional false [.value, .comma, .closeMapping] fuel rest
          let (item, rest) ← readEntryValue false [.comma, .closeMapping] fuel rest
          let (entries, rest) ← readBracedEntries fuel false rest
          return ((key, item) :: entries, rest)
      | marks, true => do
          let (key, rest) ← readContent false fuel marks
          let (entries, rest) ← readBracedEntries fuel false rest
          return ((key, .missing) :: entries, rest)
      | marks, false => outOfPlace marks

end

/-- The marks behind those that end a document. -/
def skipEnds (marks : List Mark) : List Mark :=
  marks.dropWhile (· = .documentEnd)

/-- What stands in a document, which may be nothing at all. -/
def readDocument (fuel : Nat) (marks : List Mark) : Attempt (Remaining Content) :=
  if marks.isEmpty || beginsWith [.documentStart, .documentEnd] marks then
    .ok (.missing, marks)
  else
    readContent false fuel marks

/-- The content of a whole text that is given by its marks. -/
def contentOf (marks : List Mark) : Attempt Content := do
  let fuel := 4 * marks.length + 4
  let (content, rest) ←
    match marks with
    | [] => .ok (.missing, [])
    | .documentStart :: rest => readDocument fuel rest
    | marks => readContent false fuel marks
  match skipEnds rest with
  | [] => return content
  | rest => outOfPlace rest

/-- Line ends as they are seen when a file is read as text: a line feed each. -/
def normalizeLines : List Char → List Char
  | '\r' :: '\n' :: rest => '\n' :: normalizeLines rest
  | '\r' :: rest => '\n' :: normalizeLines rest
  | c :: rest => c :: normalizeLines rest
  | [] => []

/-- The value of the text of a file. -/
def read (text : String) : Except ReadError Datum :=
  let value : Attempt Datum := do
    let content ← contentOf (marksOf (normalizeLines text.toList))
    content.construct
  value.mapError Fault.readError

end Document
end Precedence
