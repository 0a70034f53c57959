import Precedence.Record.Basic
import Precedence.Value.Equality
import Precedence.Value.Hash

/-!
# Equality and hashes of records

Records are equal when they belong to the same class and their properties are equal, apart
from those that are skipped in comparisons. The first record says which properties there
are and which of them are skipped. The properties are compared one after the other, up to
the first that differs, so an attribute that is missing matters only when it is come to.

The hash of a record depends on all its properties and on nothing else.
-/

namespace Precedence
namespace Record

variable {ω : Type} [Objects ω]

/-- The items of the list of the names of the properties. -/
def propertyList (record : Record ω) : Except Error (List (Value ω)) := do
  let names ← record.propertyNames
  match names.parts? with
  | none => .error (.noItems names.kindName)
  | some parts => return parts

/-- Whether some characters stand somewhere in others, one after the other. -/
def standsIn (part : List Char) : List Char → Bool
  | [] => part.isEmpty
  | c :: rest => part.isPrefixOf (c :: rest) || standsIn part rest

/-- Whether a name is found in a value. -/
def isFoundIn (name : Value ω) : Value ω → Except Error Bool
  | .list items => .ok (items.any name.equal)
  | .tuple items => .ok (items.any name.equal)
  | .text text =>
      match name with
      | .text part => .ok (standsIn part.toList text.toList)
      | name => .error (.noPartOfText name.kindName)
  | .mapping entries => do
      let _ ← name.hashKey.mapError .unhashable
      return entries.any fun entry => name.equal entry.1
  | place => .error (.notSearchable place.kindName)

/-- Whether comparisons with a record skip a name. -/
def skips (record : Record ω) (name : Value ω) : Except Error Bool :=
  match record.attribute? skippedNamesKey with
  | none => .ok false
  | some place => isFoundIn name place

/-- Whether two records agree on the names that the first one does not skip. -/
def agreeOn (a b : Record ω) : List (Value ω) → Except Error Bool
  | [] => .ok true
  | name :: names => do
      if ← a.skips name then
        agreeOn a b names
      else
        let value ← a.getNamed name
        let other ← b.getNamed name
        if value.equal other then agreeOn a b names else return false

/-- Equality of records. -/
def equal (a b : Record ω) : Except Error Bool :=
  if a.recordClass = b.recordClass then do
    let names ← a.propertyList
    agreeOn a b names
  else
    .ok false

/-- Inequality of records. -/
def unequal (a b : Record ω) : Except Error Bool :=
  (a.equal b).map not

/-- The hash of a record: that of all its properties together. -/
def hash (hashing : Hashing ω) (record : Record ω) : Except Error Hash := do
  let names ← record.propertyList
  let values ← record.values names
  ((Value.tuple values).hash hashing).mapError .unhashable

end Record
end Precedence
