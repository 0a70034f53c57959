import Precedence.Diagnostic
import Precedence.Token.Basic

/-!
# From text to tokens

The lexer cuts a text into tokens from left to right. At each place it takes the longest
piece that is one of:

* the end of a line: a line feed, or a carriage return with a line feed behind it;
* a run of spaces and tabs;
* a single parenthesis;
* a run of ASCII digits;
* a run of the operator characters `+ - * / ^`.

The first characters of these classes are distinct, so the class of a token is decided by
its first character and only the length of a run has to be found. A character that begins
none of them is illegal, and the first such character is reported.

Rows and columns count from 1, columns by characters; a token never crosses a line, and
the token behind an end of line stands in column 1 of the next row.
-/

namespace Precedence
namespace Lexer

/-- Spaces and tabs separate tokens. -/
def isSpace (c : Char) : Bool :=
  c = ' ' || c = '\t'

/-- The parentheses are tokens of their own. -/
def isParenthesis (c : Char) : Bool :=
  c = '(' || c = ')'

/-- Operators are runs of these characters. -/
def isOperator (c : Char) : Bool :=
  c = '+' || c = '-' || c = '*' || c = '/' || c = '^'

/-- A lexeme: the tag and the characters of a token, without its place. -/
structure Lexeme where
  tag : Tag
  chars : List Char
deriving DecidableEq

/-- The lexeme of a run: a first character and all that follow it in the same class. -/
def run (tag : Tag) (inClass : Char → Bool) (c : Char) (rest : List Char) :
    Lexeme × List Char :=
  (⟨tag, c :: rest.takeWhile inClass⟩, rest.dropWhile inClass)

/-- The longest lexeme that a character begins, and the text behind it. -/
def munch? (c : Char) (rest : List Char) : Option (Lexeme × List Char) :=
  if c = '\n' then
    some (⟨Tag.newline, [c]⟩, rest)
  else if c = '\r' then
    match rest with
    | '\n' :: rest => some (⟨Tag.newline, ['\r', '\n']⟩, rest)
    | _ => none
  else if isSpace c then
    some (run Tag.space isSpace c rest)
  else if isParenthesis c then
    some (⟨Tag.reserved, [c]⟩, rest)
  else if c.isDigit then
    some (run Tag.integer Char.isDigit c rest)
  else if isOperator c then
    some (run Tag.operator isOperator c rest)
  else
    none

/-- What is left of a list after its longest prefix in a class is no longer. -/
theorem length_dropWhile_le
    (inClass : Char → Bool)
    (chars : List Char) :
    (chars.dropWhile inClass).length ≤ chars.length := by
  induction chars with
  | nil => simp
  | cons c rest ih =>
    rw [List.dropWhile_cons]
    split
    · exact Nat.le_succ_of_le ih
    · exact Nat.le_refl _

/-- The text behind a lexeme is no longer than the text behind its first character. -/
theorem length_le_of_munch?
    {c : Char}
    {rest behind : List Char}
    {lexeme : Lexeme}
    (taken : munch? c rest = some (lexeme, behind)) :
    behind.length ≤ rest.length := by
  unfold munch? at taken
  split at taken
  · simp_all
  · split at taken
    · split at taken
      · simp_all
      · simp at taken
    · simp only [run] at taken
      split at taken
      · cases taken
        exact length_dropWhile_le _ _
      · split at taken
        · simp_all
        · split at taken
          · cases taken
            exact length_dropWhile_le _ _
          · split at taken
            · cases taken
              exact length_dropWhile_le _ _
            · simp at taken

/-- The position behind a lexeme that begins at the given one. -/
def advance (start : Position) (lexeme : Lexeme) : Position :=
  if lexeme.tag = Tag.newline then
    ⟨start.row + 1, 1⟩
  else
    ⟨start.row, start.column + lexeme.chars.length⟩

/-- The location of a piece of one line: its begin and its number of characters. -/
def locate (fileName : String) (start : Position) (width : Nat) : Location :=
  .ofPositions fileName start ⟨start.row, start.column + width⟩

/-- The token of a lexeme that begins at the given position. -/
def tokenAt (fileName : String) (start : Position) (lexeme : Lexeme) : Token :=
  ⟨String.ofList lexeme.chars, lexeme.tag, locate fileName start lexeme.chars.length⟩

/-- A character that begins no token, and where it stands. -/
structure Error where
  location : Location
  character : Char

/-- The wording of an error. -/
def Error.message (error : Error) : String :=
  "illegal character: " ++ String.singleton error.character

/-- The diagnostic of an error. -/
def Error.diagnostic (error : Error) : Diagnostic :=
  ⟨.lexical, some error.location, error.message⟩

/-- The tokens of a text that begins at the given position. -/
def tokensFrom (fileName : String) (start : Position) :
    List Char → Except Error (List Token)
  | [] => .ok []
  | c :: rest =>
      match taken : munch? c rest with
      | none => .error ⟨locate fileName start 1, c⟩
      | some (lexeme, behind) =>
          have : behind.length < rest.length + 1 :=
            Nat.lt_succ_of_le (length_le_of_munch? taken)
          (tokensFrom fileName (advance start lexeme) behind).map
            (tokenAt fileName start lexeme :: ·)
termination_by chars => chars.length

/-- All tokens of a text. -/
def tokens (fileName text : String) : Except Error (List Token) :=
  tokensFrom fileName Position.origin text.toList

/-- The tokens of a text that a grammar sees: those that do not merely separate others. -/
def printableTokens (fileName text : String) : Except Error (List Token) :=
  (tokens fileName text).map (List.filter Token.isPrintable)

end Lexer
end Precedence
