import Precedence.Parser.Reader

/-!
# Passing over tokens

A parser that matches gives back a reader further on in the same tokens. This module says
what lies between the two readers, and what they have in common.

* `Reader.Passes` relates a reader, the tokens that are passed over and the reader behind
  them. Both readers have the same tokens and the same file name.
* `Reader.InFile` says that everything a reader may be asked a location of is in one file.
  It depends on the tokens and the file name alone, so passing over tokens keeps it.
-/

namespace Precedence

/-- Any two of the tokens are in the same file. -/
def InOneFile (tokens : List Token) : Prop :=
  ∀ s ∈ tokens, ∀ t ∈ tokens, s.location.fileName = t.location.fileName

instance (tokens : List Token) : Decidable (InOneFile tokens) :=
  inferInstanceAs (Decidable (∀ s ∈ tokens, ∀ t ∈ tokens, _))

namespace Reader

theorem pos_le (reader : Reader) :
    reader.pos ≤ reader.tokens.length := by
  simp [Reader.pos, Reader.tokens]

/-- The second reader is the first one behind the given tokens. -/
structure Passes (reader : Reader) (front : List Token) (next : Reader) : Prop where
  rest_eq : reader.rest = front ++ next.rest
  consumed_eq : next.consumed = front.reverse ++ reader.consumed
  fileName_eq : next.fileName = reader.fileName

namespace Passes

variable {reader middle next : Reader}
variable {front back : List Token}

/-- A reader stands behind no tokens of its own. -/
theorem refl (reader : Reader) : reader.Passes [] reader :=
  ⟨rfl, rfl, rfl⟩

/-- What two passages pass over lies one behind the other. -/
theorem trans
    (first : reader.Passes front middle)
    (second : middle.Passes back next) :
    reader.Passes (front ++ back) next := by
  refine ⟨?_, ?_, ?_⟩
  · rw [first.rest_eq, second.rest_eq, List.append_assoc]
  · rw [second.consumed_eq, first.consumed_eq, List.reverse_append,
      List.append_assoc]
  · rw [second.fileName_eq, first.fileName_eq]

/-- Between two parts of what is passed over there is a reader. -/
theorem split
    (passes : reader.Passes (front ++ back) next) :
    ∃ middle, reader.Passes front middle ∧ middle.Passes back next := by
  refine ⟨⟨reader.fileName, front.reverse ++ reader.consumed, back ++ next.rest⟩,
    ⟨?_, rfl, rfl⟩, ⟨rfl, ?_, passes.fileName_eq⟩⟩
  · rw [passes.rest_eq, List.append_assoc]
  · rw [passes.consumed_eq, List.reverse_append, List.append_assoc]

/-- Moving on passes over the first token that remains. -/
theorem of_next?
    {token : Token}
    (moved : reader.next? = some (token, next)) :
    reader.Passes [token] next := by
  unfold next? at moved
  split at moved
  · cases moved
  · rename_i remaining
    cases moved
    exact ⟨remaining, rfl, rfl⟩

theorem tokens_eq
    (passes : reader.Passes front next) :
    next.tokens = reader.tokens := by
  simp only [Reader.tokens, passes.rest_eq, passes.consumed_eq,
    List.reverse_append, List.reverse_reverse, List.append_assoc]

theorem pos_eq
    (passes : reader.Passes front next) :
    next.pos = reader.pos + front.length := by
  simp only [Reader.pos, passes.consumed_eq, List.length_append,
    List.length_reverse]
  omega

theorem length_rest
    (passes : reader.Passes front next) :
    reader.rest.length = front.length + next.rest.length := by
  rw [passes.rest_eq, List.length_append]

end Passes

/-- The second reader stands somewhere in the tokens of the first. -/
structure SameTokens (reader next : Reader) : Prop where
  tokens_eq : next.tokens = reader.tokens
  fileName_eq : next.fileName = reader.fileName

namespace SameTokens

variable {reader middle next : Reader}

theorem refl (reader : Reader) : reader.SameTokens reader :=
  ⟨rfl, rfl⟩

theorem of_passes
    {front : List Token}
    (same : reader.SameTokens middle)
    (passes : middle.Passes front next) :
    reader.SameTokens next :=
  ⟨passes.tokens_eq.trans same.tokens_eq, passes.fileName_eq.trans same.fileName_eq⟩

/-- Of two places in the same tokens the later one has fewer tokens before it. -/
theorem length_rest_lt
    (left : reader.SameTokens middle)
    (right : reader.SameTokens next)
    (later : middle.pos < next.pos) :
    next.rest.length < middle.rest.length := by
  have same : middle.tokens.length = next.tokens.length := by
    rw [left.tokens_eq, right.tokens_eq]
  simp only [Reader.tokens, List.length_append, List.length_reverse] at same
  simp only [Reader.pos] at later
  omega

end SameTokens

/-- The tokens of a reader are in a file, and so is the reader if it has no tokens. -/
structure InFile (reader : Reader) (file : String) : Prop where
  tokens : ∀ token ∈ reader.tokens, token.location.fileName = file
  empty : reader.tokens = [] → reader.fileName = file

namespace InFile

variable {reader next : Reader}
variable {file : String}

theorem of_sameTokens
    (inFile : reader.InFile file)
    (same : reader.SameTokens next) :
    next.InFile file := by
  refine ⟨?_, ?_⟩
  · rw [same.tokens_eq]
    exact inFile.tokens
  · rw [same.tokens_eq, same.fileName_eq]
    exact inFile.empty

theorem of_passes
    {front : List Token}
    (inFile : reader.InFile file)
    (passes : reader.Passes front next) :
    next.InFile file :=
  inFile.of_sameTokens ((SameTokens.refl reader).of_passes passes)

/-- Where a reader stands is in the file of its tokens. -/
theorem location
    (inFile : reader.InFile file) :
    reader.location.fileName = file := by
  unfold Reader.location
  split
  · rename_i token _ remaining
    exact inFile.tokens token (by simp [Reader.tokens, remaining])
  · rename_i token _ _ before
    exact inFile.tokens token (by simp [Reader.tokens, before])
  · rename_i remaining before
    exact inFile.empty (by simp [Reader.tokens, remaining, before])

/-- The first token that remains is in the file. -/
theorem head
    {token : Token}
    {rest : List Token}
    (inFile : reader.InFile file)
    (remaining : reader.rest = token :: rest) :
    token.location.fileName = file :=
  inFile.tokens token (by simp [Reader.tokens, remaining])

end InFile

/-- Tokens of one file put every reader over them in the file of its own location. -/
theorem inFile_of_inOneFile
    {reader : Reader}
    (oneFile : InOneFile reader.tokens) :
    reader.InFile reader.location.fileName := by
  unfold Reader.location
  split
  · rename_i token _ remaining
    have member : token ∈ reader.tokens := by
      simp [Reader.tokens, remaining]
    refine ⟨fun other there => oneFile other there token member, ?_⟩
    intro none
    rw [none] at member
    cases member
  · rename_i token _ _ before
    have member : token ∈ reader.tokens := by
      simp [Reader.tokens, before]
    refine ⟨fun other there => oneFile other there token member, ?_⟩
    intro none
    rw [none] at member
    cases member
  · rename_i remaining before
    refine ⟨?_, fun _ => rfl⟩
    intro token there
    simp [Reader.tokens, remaining, before] at there

end Reader
end Precedence
