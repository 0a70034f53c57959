import Precedence.Document.Content
import Precedence.Document.Scalar
import Precedence.Value.Equality

/-!
# From contents to values

Scalars are the values that they are read as, sequences are lists and mappings are
mappings. The key of a mapping has to be a scalar. A key that occurs again replaces the
value of the earlier entry, which keeps its place.

A content may have several faults. Values are made level by level, from the outermost to
the innermost, and on each level from left to right, so the fault that is found is the
first of those on the outermost level that has any.
-/

namespace Precedence
namespace Document

/-- Whether two keys are the same: equal, or both of them not a number. -/
def isSameKey (key other : Datum) : Bool :=
  match key, other with
  | .float x, .float y => x == y || (x.isNaN && y.isNaN)
  | key, other => Value.equal key other

/-- Add an entry to a mapping, or replace the value of an entry with the same key. -/
def putEntry (key : Datum) (item : Datum) : List (Datum × Datum) → List (Datum × Datum)
  | [] => [(key, item)]
  | (other, old) :: rest =>
      if isSameKey other key then
        (other, item) :: rest
      else
        (other, old) :: putEntry key item rest

/-- Two lists of levels, put together level by level. -/
def joinLevels {α : Type} : List (List α) → List (List α) → List (List α)
  | [], levels => levels
  | levels, [] => levels
  | level :: levels, other :: others => (level ++ other) :: joinLevels levels others

namespace Content

/-- The fault of a scalar. -/
def scalarFault : Content → List Fault
  | plain text =>
      match plainValue text with
      | .ok _ => []
      | .error fault => [fault]
  | _ => []

/-- The fault of a content as a key: a key has to be a scalar without a fault. -/
def keyFault : Content → List Fault
  | sequence _ => [.malformed]
  | mapping _ => [.malformed]
  | scalar => scalar.scalarFault

mutual

/-- The faults on the levels below a content. -/
def faultsBelow : Content → List (List Fault)
  | sequence items => itemFaults items
  | mapping entries => entryFaults entries
  | _ => []

/-- The faults of the items of a sequence, by levels. -/
def itemFaults : List Content → List (List Fault)
  | [] => []
  | item :: items => joinLevels (item.scalarFault :: faultsBelow item) (itemFaults items)

/-- The faults of the keys and values of a mapping, by levels. -/
def entryFaults : List (Content × Content) → List (List Fault)
  | [] => []
  | (key, item) :: entries =>
      joinLevels ((key.keyFault ++ item.scalarFault) :: faultsBelow item)
        (entryFaults entries)

end

/-- The fault that is found in a content, if it has any. -/
def fault? (content : Content) : Option Fault :=
  (content.scalarFault :: faultsBelow content).flatten.head?

mutual

/-- The value of a content without a fault. -/
def value : Content → Datum
  | plain text => (plainValue text).toOption.getD .null
  | quoted codePoints => .ofCodePoints codePoints
  | sequence items => .list (itemValues items)
  | mapping entries => .mapping (entryValues [] entries)

/-- The values of the items of a sequence. -/
def itemValues : List Content → List Datum
  | [] => []
  | item :: items => value item :: itemValues items

/-- The entries of a mapping, added to those that were made before. -/
def entryValues (made : List (Datum × Datum)) :
    List (Content × Content) → List (Datum × Datum)
  | [] => made
  | (key, item) :: entries => entryValues (putEntry (value key) (value item) made) entries

end

/-- The value of a content. -/
def construct (content : Content) : Attempt Datum :=
  match content.fault? with
  | some fault => .error fault
  | none => .ok content.value

end Content
end Document
end Precedence
