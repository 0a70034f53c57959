import Precedence.Token.Basic

/-!
# Readers

A reader is a place in a list of tokens: the tokens that were consumed, the latest first,
and those that remain. It never changes; moving on gives another reader, so a parser that
fails leaves the reader it was given as good as before.
-/

namespace Precedence

/-- A place in the tokens of a file. -/
structure Reader where
  fileName : String
  /-- The tokens before the place, the latest first. -/
  consumed : List Token
  /-- The tokens from the place on. -/
  rest : List Token

namespace Reader

/-- The reader at the beginning of a list of tokens. -/
def ofTokens (fileName : String) (tokens : List Token) : Reader :=
  ⟨fileName, [], tokens⟩

/-- All tokens, in order, wherever the reader stands. -/
def tokens (reader : Reader) : List Token :=
  reader.consumed.reverse ++ reader.rest

/-- The number of tokens before the reader. -/
def pos (reader : Reader) : Nat :=
  reader.consumed.length

/-- Whether no token remains. -/
def isEmpty (reader : Reader) : Bool :=
  reader.rest.isEmpty

/-- The first token that remains, with the reader behind it. -/
def next? (reader : Reader) : Option (Token × Reader) :=
  match reader.rest with
  | [] => none
  | token :: rest =>
      some (token, { reader with consumed := token :: reader.consumed, rest := rest })

/-- The first token that remains. -/
def token? (reader : Reader) : Option Token :=
  reader.next?.map Prod.fst

/-- The reader behind the first token that remains. -/
def skip? (reader : Reader) : Option Reader :=
  reader.next?.map Prod.snd

/--
The location of the first token that remains. At the end it is the location of the last
token, and in an empty list the very beginning of the file.
-/
def location (reader : Reader) : Location :=
  match reader.rest, reader.consumed with
  | token :: _, _ => token.location
  | [], token :: _ => token.location
  | [], [] => Location.startOf reader.fileName

/-- The reader that stands some tokens further on, if there are so many. -/
def advance? : Nat → Reader → Option Reader
  | 0, reader => some reader
  | count + 1, reader => reader.skip?.bind (advance? count)

@[simp] theorem tokens_ofTokens
    (fileName : String)
    (tokens : List Token) :
    (ofTokens fileName tokens).tokens = tokens := by
  simp [ofTokens, Reader.tokens]

/-- Moving on changes neither the tokens nor the file. -/
theorem tokens_of_next?
    {reader next : Reader}
    {token : Token}
    (moved : reader.next? = some (token, next)) :
    next.tokens = reader.tokens ∧ next.fileName = reader.fileName ∧
      reader.rest = token :: next.rest := by
  unfold next? at moved
  split at moved
  · simp at moved
  · rename_i token' rest remaining
    cases moved
    simp [tokens, remaining]

end Reader
end Precedence
