import Precedence.Location

/-!
# Tokens

A token is a piece of source text with a tag that says what it is and the location where
it stands. Tags are an open vocabulary of names: a parser may ask for any of them. The
lexer of this library produces the five of `Tag`.
-/

namespace Precedence

/-- The name of a class of tokens. -/
abbrev Tag := String

namespace Tag

/-- A parenthesis. -/
def reserved : Tag := "reserved"

/-- A run of operator characters. -/
def operator : Tag := "operator"

/-- A run of digits. -/
def integer : Tag := "integer"

/-- The end of a line. -/
def newline : Tag := "newline"

/-- A run of spaces and tabs. -/
def space : Tag := "space"

end Tag

/-- A piece of source text. -/
structure Token where
  text : String
  tag : Tag
  location : Location

namespace Token

/-- Tokens are equal in all three properties. -/
instance : BEq Token :=
  ⟨fun a b => a.text == b.text && a.tag == b.tag && a.location == b.location⟩

/-- A token is printable unless it only separates other tokens. -/
def isPrintable (token : Token) : Bool :=
  token.tag != Tag.newline && token.tag != Tag.space

/-- The report of a token: its text, its tag and its place. -/
def render (token : Token) : String :=
  "(\"" ++ token.text ++ "\", " ++ token.tag ++ ") @ " ++ token.location.render

/-- The literal of a token. -/
def literal (token : Token) : String :=
  recordLiteral "Token"
    [Text.quoted token.text, Text.quoted token.tag, token.location.literal]

end Token
end Precedence
