/-!
# Errors of records

Why a class of records cannot be made, a record cannot be made, or a record cannot answer.
Most of the errors are about a value of the wrong kind, and tell its kind.
-/

namespace Precedence
namespace Record

/-- Why an operation on records has no result. -/
inductive Error where
  /-- The name of a class has the zero character in it. -/
  | zeroInClassName
  /-- The values do not fit the properties of the class. -/
  | unfitValues
  /-- A value is given under the name of the record itself. -/
  | valueForRecord
  /-- The class of a record would be replaced by a value. -/
  | replacesClass (kind : String)
  /-- The attributes of a record would be replaced by a value that is no mapping. -/
  | replacesAttributes (kind : String)
  /-- An attribute cannot be replaced. -/
  | fixedAttribute (name : String)
  /-- What should be the name of an attribute is no text. -/
  | noName (kind : String)
  /-- What should be a list of names has no length. -/
  | noLength (kind : String)
  /-- What should be a list of names has no items. -/
  | noItems (kind : String)
  /-- What should be a list of skipped names cannot be searched. -/
  | notSearchable (kind : String)
  /-- A text is searched for something that is no text. -/
  | noPartOfText (kind : String)
  /-- A property has a value that has no hash. -/
  | unhashable (kind : String)
  /-- A record does not have an attribute. -/
  | noAttribute (className name : String)

/-- The bytes of a class name that a message shows. -/
def shownLength : Nat := 50

/--
The characters that fit into some bytes. A character that is cut through is shown as the
replacement character.
-/
def fitting : Nat → List Char → List Char
  | _, [] => []
  | bytes, c :: rest =>
      if c.utf8Size ≤ bytes then c :: fitting (bytes - c.utf8Size) rest
      else if bytes = 0 then []
      else ['\ufffd']

/-- A class name as a message shows it. -/
def shownName (className : String) : String :=
  String.ofList (fitting shownLength className.toList)

namespace Error

/-- The wording of an error. -/
def message : Error → String
  | zeroInClassName => "type name must not contain null characters"
  | unfitValues => ""
  | valueForRecord => "Data.__init__() got multiple values for argument 'self'"
  | replacesClass kind => "__class__ must be set to a class, not '" ++ kind ++ "' object"
  | replacesAttributes kind => "__dict__ must be set to a dictionary, not a '" ++ kind ++ "'"
  | fixedAttribute name => "attribute '" ++ name ++ "' of 'Data' objects is not writable"
  | noName kind => "attribute name must be string, not '" ++ kind ++ "'"
  | noLength kind => "object of type '" ++ kind ++ "' has no len()"
  | noItems kind => "'" ++ kind ++ "' object is not iterable"
  | notSearchable kind => "argument of type '" ++ kind ++ "' is not iterable"
  | noPartOfText kind => "'in <string>' requires string as left operand, not " ++ kind
  | unhashable kind => "unhashable type: '" ++ kind ++ "'"
  | noAttribute className name =>
      "'" ++ shownName className ++ "' object has no attribute '" ++ name ++ "'"

end Error
end Record
end Precedence
