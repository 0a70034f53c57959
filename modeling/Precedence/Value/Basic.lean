import Precedence.Text.Quoted

/-!
# Dynamic values

The values that a document may hold, that a record may have as properties and that a
parser whose actions are chosen at run time produces: nothing, truth values, unbounded
integers, doubles, texts, lists, tuples, mappings and objects.

A text may also have code points that are no characters, the halves of surrogate pairs;
such a text is kept apart as the list of all its code points. A mapping is the list of its
entries in order of insertion, no key twice.

Objects are the values of all other kinds, such as records and classes. Whoever uses them
chooses their type, and what can be asked of them (`Objects`). A document holds none
(`Datum`).
-/

namespace Precedence

/-- A value whose kind is known at run time only, among objects of some type. -/
inductive Value (ω : Type) where
  | null
  | bool (value : Bool)
  | int (value : Int)
  | float (value : Float)
  | text (value : String)
  | brokenText (codePoints : List Nat)
  | list (items : List (Value ω))
  | tuple (items : List (Value ω))
  | mapping (entries : List (Value ω × Value ω))
  | object (value : ω)

/-- What can be asked of objects. They have no parts, and equal nothing but objects. -/
class Objects (ω : Type) where
  /-- Whether an object takes another one for its equal. -/
  equal : ω → ω → Bool
  /-- The name of the kind of an object. -/
  kindName : ω → String
  /-- The literal of an object. -/
  literal : ω → String
  /-- Whether an object has a hash. -/
  isHashable : ω → Bool

/-- A value without any objects. -/
abbrev Datum := Value Empty

instance : Objects Empty where
  equal := nofun
  kindName := nofun
  literal := nofun
  isHashable := nofun

namespace Value

variable {ω : Type}

/-- The text with the given code points. -/
def ofCodePoints (codePoints : List Nat) : Value ω :=
  if codePoints.all fun n => (Text.charOf? n).isSome then
    text (String.ofList (codePoints.filterMap Text.charOf?))
  else
    brokenText codePoints

/-- Whether the value is the given text. -/
def isText (name : String) : Value ω → Bool
  | text value => value == name
  | _ => false

/-- The value that a mapping's entries give to a text key. -/
def lookup? (name : String) (entries : List (Value ω × Value ω)) : Option (Value ω) :=
  (entries.find? fun entry => entry.1.isText name).map Prod.snd

/-- The value under a text key, for a mapping that has the key. -/
def field? (value : Value ω) (name : String) : Option (Value ω) :=
  match value with
  | mapping entries => lookup? name entries
  | _ => none

/-- The name of the value's kind. -/
def kindName [Objects ω] : Value ω → String
  | null => "NoneType"
  | bool _ => "bool"
  | int _ => "int"
  | float _ => "float"
  | text _ => "str"
  | brokenText _ => "str"
  | list _ => "list"
  | tuple _ => "tuple"
  | mapping _ => "dict"
  | object value => Objects.kindName value

/--
The parts that a value has one after the other: items, the characters of a text, the keys of
a mapping.
-/
def parts? : Value ω → Option (List (Value ω))
  | text value => some (value.toList.map fun c => text (String.singleton c))
  | brokenText codePoints => some (codePoints.map fun n => ofCodePoints [n])
  | list items => some items
  | tuple items => some items
  | mapping entries => some (entries.map Prod.fst)
  | _ => none

end Value
end Precedence
