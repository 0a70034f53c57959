import Precedence.Document.Fault

/-!
# Marks

The structure of a document, spelled out. Indentation and brackets become marks around the
items of sequences and the entries of mappings, and scalars stand between them with their
escapes and line folds resolved.

Where a text has no layout, its marks end with the fault. The marks in front of it are those
that could be acted on before the fault was come upon.
-/

namespace Precedence
namespace Document

/-- A structural element of a document. -/
inductive Mark where
  /-- A line that begins a document. -/
  | documentStart
  /-- A line that ends a document. -/
  | documentEnd
  /-- A sequence begins that is written by indentation. -/
  | sequenceStart
  /-- A mapping begins that is written by indentation. -/
  | mappingStart
  /-- A sequence or a mapping ends that is written by indentation. -/
  | blockEnd
  /-- An item of a sequence follows that is written by indentation. -/
  | item
  /-- The key of an entry follows. -/
  | key
  /-- The value of an entry follows. -/
  | value
  /-- An opening bracket. -/
  | openList
  /-- A closing bracket. -/
  | closeList
  /-- An opening brace. -/
  | openMapping
  /-- A closing brace. -/
  | closeMapping
  /-- A comma between brackets or braces. -/
  | comma
  /-- A scalar that is written without quotes. -/
  | plain (text : String)
  /-- A scalar that is written in quotes, by the code points of its text. -/
  | quoted (codePoints : List Nat)
  /-- The text goes no further. -/
  | broken (fault : Fault)
deriving DecidableEq

end Document
end Precedence
