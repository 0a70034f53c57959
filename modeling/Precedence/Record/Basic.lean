import Precedence.Record.Error
import Precedence.Value.Literal

/-!
# Records

A record belongs to a class, which names its properties in order, and has a value for each
of them. A record is made from some values in order, for the first properties, and from
values by name for exactly the remaining ones.

## Attributes

What a record can be asked for by name is an attribute: its properties, and what its class
says about all its records, which is the names of the properties and the names that
comparisons skip. A property comes before what the class says under the same name. A record
with a property that is called `propertyNames` therefore tells the names of its properties
itself. Its value can be anything, so that it need not be a list of names, and the names in
it need not be those of attributes.

A few attributes are there in every record and follow rules of their own: the class, which
is never replaced, and the mapping of all attributes, which is replaced as a whole.
-/

namespace Precedence

/-- A class of records. -/
structure RecordClass where
  name : String
  propertyNames : List String
  /-- The names that comparisons skip, if the class says anything about that. -/
  skippedNames : Option (List String)
deriving DecidableEq

/-- A record: its class and its own attributes, in the order in which they were assigned. -/
structure Record (ω : Type) where
  recordClass : RecordClass
  attributes : List (String × Value ω)

/-- The class with a given name. -/
def RecordClass.create (name : String) (propertyNames : List String)
    (skippedNames : Option (List String)) : Except Record.Error RecordClass :=
  if name.contains '\x00' then .error .zeroInClassName
  else .ok ⟨name, propertyNames, skippedNames⟩

namespace Record

/-! ## Names with a meaning -/

/-- The attribute that lists the names of the properties. -/
def propertyNamesKey : String := "propertyNames"

/-- The attribute that lists the names that comparisons skip. -/
def skippedNamesKey : String := "skipCompareNames"

/-- The attribute that is the class of a record. -/
def classKey : String := "__class__"

/-- The attribute that is the mapping of all own attributes. -/
def attributesKey : String := "__dict__"

/-- The attribute that tells who watches a record, which nobody does. -/
def watchersKey : String := "__weakref__"

/-- The attribute that describes the class, which no class does. -/
def descriptionKey : String := "__doc__"

/-- The name that stands for the record itself where a record is made. -/
def recordKey : String := "self"

variable {ω : Type}

/-! ## Making a record -/

/-- Give a value to a name; a name that has one keeps its place. -/
def put (name : String) (value : Value ω) : List (String × Value ω) → List (String × Value ω)
  | [] => [(name, value)]
  | (other, old) :: rest =>
      if other = name then (name, value) :: rest else (other, old) :: put name value rest

/-- The attributes that the entries of a mapping give. -/
def attributesOf (entries : List (Value ω × Value ω)) : List (String × Value ω) :=
  entries.filterMap fun
    | (.text name, value) => some (name, value)
    | _ => none

/-- The attributes after a value has been assigned to one of them. -/
def assign [Objects ω] (attributes : List (String × Value ω))
    (assignment : String × Value ω) : Except Error (List (String × Value ω)) :=
  let (name, value) := assignment
  if name = classKey then
    .error (.replacesClass value.kindName)
  else if name = watchersKey then
    .error (.fixedAttribute name)
  else if name = attributesKey then
    match value with
    | .mapping entries => .ok (attributesOf entries)
    | value => .error (.replacesAttributes value.kindName)
  else
    .ok (put name value attributes)

/-- Whether the names that have values are exactly the names that lack them. -/
def sameNames (lacking named : List String) : Bool :=
  lacking.all named.contains && named.all lacking.contains

/-- Make a record from values in order and, for the remaining properties, by name. -/
def create [Objects ω] (recordClass : RecordClass) (positional : List (Value ω))
    (named : List (String × Value ω)) : Except Error (Record ω) := do
  let names := recordClass.propertyNames
  if named.any fun assignment => assignment.1 = recordKey then
    .error .valueForRecord
  else if positional.length + named.length = names.length ∧
      sameNames (names.drop positional.length) (named.map Prod.fst) then
    let attributes ← (names.zip positional ++ named).foldlM assign []
    return ⟨recordClass, attributes⟩
  else
    .error .unfitValues

/-! ## Asking a record -/

/-- A list of names as a value. -/
def nameList (names : List String) : Value ω :=
  .list (names.map .text)

/-- What the class of a record says about all its records. -/
def classAttribute? (recordClass : RecordClass) (name : String) : Option (Value ω) :=
  if name = propertyNamesKey then
    some (nameList recordClass.propertyNames)
  else if name = skippedNamesKey then
    recordClass.skippedNames.map nameList
  else if name = descriptionKey then
    some .null
  else
    none

/-- The value of an attribute, if the record has the attribute. -/
def attribute? (record : Record ω) (name : String) : Option (Value ω) :=
  if name = attributesKey then
    some (.mapping (record.attributes.map fun (name, value) => (.text name, value)))
  else if name = watchersKey then
    some .null
  else
    (record.attributes.lookup name).or (classAttribute? record.recordClass name)

/-- The value of an attribute. -/
def get (record : Record ω) (name : String) : Except Error (Value ω) :=
  match record.attribute? name with
  | some value => .ok value
  | none => .error (.noAttribute record.recordClass.name name)

/-- The value of an attribute whose name is given as a value. -/
def getNamed [Objects ω] (record : Record ω) : Value ω → Except Error (Value ω)
  | .text name => record.get name
  | name => .error (.noName name.kindName)

/-- What the record has for the list of the names of its properties. -/
def propertyNames (record : Record ω) : Except Error (Value ω) :=
  record.get propertyNamesKey

/-- The values of the attributes that some names stand for. -/
def values [Objects ω] (record : Record ω) (names : List (Value ω)) :
    Except Error (List (Value ω)) :=
  names.mapM record.getNamed

/-- The literal of a record. -/
def literal [Objects ω] (record : Record ω) : Except Error String := do
  let names ← record.propertyNames
  match names.parts? with
  | none => .error (.noLength names.kindName)
  | some parts =>
      let values ← record.values parts
      return recordLiteral record.recordClass.name (Value.literals values)

end Record
end Precedence
