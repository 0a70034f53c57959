import Precedence.Document.Mark

/-!
# Contents of documents

A document as a tree: scalars as they are written, sequences of contents and mappings of
contents to contents.

Two plain scalars mean something as keys only. The key `=` stands for its text. The key
`<<` merges: its value is a mapping, or a sequence of mappings, the entries of which are
put in front of all other entries, so that an entry of the mapping itself comes before a
merged one, and of merged mappings an earlier one before a later one. Merges are carried
out when a mapping is made, so contents hold no merge except one that cannot be carried
out.
-/

namespace Precedence
namespace Document

/-- What a document, or a part of one, consists of. -/
inductive Content where
  /-- A scalar that is written without quotes. -/
  | plain (text : String)
  /-- A scalar that is written in quotes, by the code points of its text. -/
  | quoted (codePoints : List Nat)
  | sequence (items : List Content)
  | mapping (entries : List (Content × Content))

namespace Content

/-- Nothing is written. -/
def missing : Content := plain ""

/-- The plain scalar that merges as a key. -/
def mergeText : String := "<<"

/-- The plain scalar that stands for its text as a key. -/
def defaultText : String := "="

/-- Whether a content is a given plain scalar. -/
def isPlain (text : String) : Content → Bool
  | plain other => other == text
  | _ => false

/-- The entries of a mapping. -/
def entries? : Content → Option (List (Content × Content))
  | mapping entries => some entries
  | _ => none

/-- The entries that a merged value brings in. -/
def mergedEntries? : Content → Option (List (Content × Content))
  | sequence items => (items.mapM entries?).map fun parts => parts.reverse.flatten
  | other => other.entries?

/-- A key as it stands in a mapping. -/
def keyOf (key : Content) : Content :=
  if key.isPlain defaultText then quoted (defaultText.toList.map Char.toNat) else key

/-- The mapping of some entries, with all merges carried out. -/
def ofEntries (entries : List (Content × Content)) : Content :=
  let (merges, own) := entries.partition fun entry => entry.1.isPlain mergeText
  let own := own.map fun entry => (keyOf entry.1, entry.2)
  match merges.mapM fun entry => entry.2.mergedEntries? with
  | some merged => mapping (merged.flatten ++ own)
  | none => mapping ((plain mergeText, missing) :: own)

end Content
end Document
end Precedence
