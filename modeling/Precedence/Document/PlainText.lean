import Precedence.Document.Cursor

/-!
# Scalars without quotes

A plain scalar is a number of words, on one line or on several. It ends at a colon that ends
a word, at a comment, at a line that does not belong to it and, between brackets, at
whatever has a meaning there.
-/

namespace Precedence
namespace Document

/-- The brackets, the braces and the comma, which have a meaning between brackets only. -/
def isFlowIndicator (c : Char) : Bool :=
  c = ',' || c = '[' || c = ']' || c = '\x7b' || c = '\x7d'

/-- The length of the word that a plain scalar goes on with. -/
def plainWord (inFlow : Bool) : List Char → Nat
  | [] => 0
  | c :: rest =>
      let endsAtColon :=
        c = ':' && (endsWord rest.head? || (inFlow && rest.head?.any isFlowIndicator))
      if isGap c || endsAtColon || (inFlow && (c = '?' || isFlowIndicator c)) then
        0
      else
        plainWord inFlow rest + 1

/--
The line breaks that follow inside a plain scalar, blanks around them left out, and
whether a line that begins or ends a document stands behind them.
-/
def plainBreaks : Nat → Cursor → List Char × Cursor × Bool
  | 0, cursor => ([], cursor, false)
  | lines + 1, cursor =>
      if cursor.column = 0 && cursor.documentMark?.isSome then
        ([], cursor, true)
      else
        let behind := cursor.skipWhile (· = ' ')
        match behind.break? with
        | some (text, behind) =>
            let (more, behind, atMark) := plainBreaks lines behind
            (text ++ more, behind, atMark)
        | none => ([], behind, false)

/--
What stands between two words of a plain scalar, the place behind it, and whether a line
was crossed. It is empty where the scalar cannot go on.
-/
def plainSpace (cursor : Cursor) : List Char × Cursor × Bool :=
  let blanks := cursor.rest.takeWhile (· = ' ')
  let behind := cursor.skip blanks.length
  match behind.break? with
  | none => (blanks, behind, false)
  | some (first, behind) =>
      match plainBreaks behind.rest.length.succ behind with
      | (_, behind, true) => ([], behind, true)
      | (more, behind, false) => (fold first more, behind, true)

/--
The text of a plain scalar, given what stands in front of the next word, with the place
behind the scalar and whether a line was crossed since the last word. Outside of brackets
a scalar goes on only on lines that are indented further than the block around it.
-/
def plainFrom (inFlow : Bool) (indent : Int) :
    Nat → List Char → Bool → Cursor → List Char × Bool × Cursor
  | 0, _, crossed, cursor => ([], crossed, cursor)
  | words + 1, space, crossed, cursor =>
      let length := if cursor.isAt '#' then 0 else plainWord inFlow cursor.rest
      if length = 0 then
        ([], crossed, cursor)
      else
        let word := cursor.rest.take length
        let (following, behind, crossed) := plainSpace (cursor.skip length)
        let (more, crossed, behind) :=
          if following.isEmpty || behind.isAt '#' ||
              (!inFlow && (behind.column : Int) ≤ indent) then
            ([], crossed, behind)
          else
            plainFrom inFlow indent words following crossed behind
        (space ++ word ++ more, crossed, behind)

/-- Whether a plain scalar may begin at a place. -/
def beginsPlain (inFlow : Bool) (cursor : Cursor) : Bool :=
  match cursor.rest with
  | [] => false
  | c :: rest =>
      let isIndicator := isGap c || "-?:,[]\x7b\x7d#&*!|>\x27\x22%@\x60".toList.contains c
      !isIndicator ||
        (!endsWord rest.head? && (c = '-' || (!inFlow && (c = '?' || c = ':'))))

end Document
end Precedence
