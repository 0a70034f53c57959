import Precedence.Value.Hash
import Precedence.Value.Literal

/-!
# Source locations

A location names a file and two positions in it, where something begins and where it
ends. Rows and columns are unbounded integers; nothing asks the begin to come before the
end.

The *unknown* location stands for the lack of one. It occupies a place of its own (file
`<unknown>`, row 1, column 1), so it can be compared and combined like any other; only
its report differs. What is combined is never unknown, even when all its parts are.

`Location.combine?` is the smallest location that covers two locations of one file: it
takes the lexicographically least begin and the lexicographically greatest end.
-/

namespace Precedence

/-- A row and a column of a text. -/
structure Position where
  row : Int
  column : Int
deriving DecidableEq

namespace Position

/-- Positions are ordered by row, and within a row by column. -/
def before (p q : Position) : Bool :=
  p.row < q.row || (p.row = q.row && p.column < q.column)

/-- The earlier of two positions. -/
def earlier (p q : Position) : Position :=
  if q.before p then q else p

/-- The later of two positions. -/
def later (p q : Position) : Position :=
  if p.before q then q else p

/-- Where a text begins. -/
def origin : Position := ⟨1, 1⟩

end Position

/-- A stretch of a file. -/
structure Span where
  fileName : String
  start : Position
  stop : Position
deriving DecidableEq

/-- Where something stands in a source, if that is known. -/
inductive Location where
  | unknown
  | known (span : Span)

namespace Location

/-- The location from one position to another. -/
def ofPositions (fileName : String) (start stop : Position) : Location :=
  known ⟨fileName, start, stop⟩

/-- The location at the very beginning of a file. -/
def startOf (fileName : String) : Location :=
  ofPositions fileName Position.origin Position.origin

/-- The file name of the unknown location, which is also its report. -/
def unknownName : String := "<unknown>"

/-- The place that a location occupies. -/
def span : Location → Span
  | unknown => ⟨unknownName, Position.origin, Position.origin⟩
  | known span => span

/-- The file that the location is in. -/
def fileName (location : Location) : String :=
  location.span.fileName

/-- Locations are compared by the place that they occupy. -/
instance : BEq Location :=
  ⟨fun a b => a.span == b.span⟩

/-- The least location that covers two locations, if they are in one file. -/
def combine? (a b : Location) : Option Location :=
  if a.fileName = b.fileName then
    some (known
      ⟨a.fileName, a.span.start.earlier b.span.start, a.span.stop.later b.span.stop⟩)
  else
    none

/-- The report of a location: `file:row.column-row.column`. -/
def render : Location → String
  | unknown => unknownName
  | known span =>
      span.fileName ++ ":" ++
        toString span.start.row ++ "." ++ toString span.start.column ++ "-" ++
        toString span.stop.row ++ "." ++ toString span.stop.column

/-- The properties of a location in order: file name, begin, end. -/
def properties (location : Location) : List Datum :=
  let span := location.span
  [.text span.fileName, .int span.start.row, .int span.start.column,
    .int span.stop.row, .int span.stop.column]

/-- The literal of a location. -/
def literal (location : Location) : String :=
  recordLiteral "Location" (Value.literals location.properties)

/-- The hash of a location is that of all its properties together. -/
def hash (hashing : Hashing Empty) (location : Location) : Except String Hash :=
  (Value.tuple location.properties).hash hashing

/-- Locations are values, too. -/
instance : Objects Location where
  equal := (· == ·)
  kindName := fun _ => "Location"
  literal := literal
  isHashable := fun _ => true

/-- Two locations can be combined exactly when they are in one file. -/
theorem isSome_combine?
    (a b : Location) :
    (a.combine? b).isSome = true ↔ a.fileName = b.fileName := by
  unfold combine?
  split <;> simp [*]

end Location
end Precedence
