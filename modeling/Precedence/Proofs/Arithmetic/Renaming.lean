import Precedence.Proofs.Arithmetic.Correspondence
import Precedence.Proofs.Token.Segmentation

/-!
# One text in two files

The name of a file is a part of the locations in it, and nothing depends on it. The same text
under two names has the same tokens, each at the same positions (`Lexer.tokens_renamed`). Readers
in these tokens correspond to each other, and so what the grammar of a table makes of them is the
same in both files but for their names (`Arithmetic.parse_renamed`).
-/

namespace Precedence

variable {file file' : String}

/-- The same stretch of two files. -/
inductive Location.Renamed (file file' : String) : Location → Location → Prop
  | ofPositions
      (start stop : Position) :
      Renamed file file' (.ofPositions file start stop) (.ofPositions file' start stop)

theorem Location.Renamed.combine
    {a a' b b' : Location}
    (first : Renamed file file' a a')
    (second : Renamed file file' b b') :
    Option.Rel (Renamed file file') (a.combine? b) (a'.combine? b') := by
  cases first with
  | ofPositions start stop =>
      cases second with
      | ofPositions start' stop' =>
          change Option.Rel _ (if file = file then some (Location.ofPositions file _ _) else none)
            (if file' = file' then some (Location.ofPositions file' _ _) else none)
          rw [if_pos rfl, if_pos rfl]
          exact .some (.ofPositions _ _)

/-- The same token in two files. -/
abbrev Token.Renamed (file file' : String) : Token → Token → Prop :=
  Token.Corresponds (Location.Renamed file file')

/-- The same place in the tokens of a text in two files. -/
structure Reader.Renamed (file file' : String) (place place' : Reader) : Prop where
  named : place.fileName = file
  named' : place'.fileName = file'
  consumed : place.consumed.Forall₂ (Token.Renamed file file') place'.consumed
  rest : place.rest.Forall₂ (Token.Renamed file file') place'.rest

namespace Reader.Renamed

variable {place place' : Reader}

theorem next
    (renamed : Renamed file file' place place') :
    Option.Rel
      (fun step step' => Token.Renamed file file' step.1 step'.1 ∧ Renamed file file' step.2 step'.2)
      place.next? place'.next? := by
  obtain ⟨name, consumed, rest⟩ := place
  obtain ⟨name', consumed', rest'⟩ := place'
  obtain ⟨named, named', consumed, rest⟩ := renamed
  unfold next?
  cases rest with
  | nil => exact .none
  | cons token rest => exact .some ⟨token, named, named', .cons token consumed, rest⟩

theorem location
    (renamed : Renamed file file' place place') :
    Location.Renamed file file' place.location place'.location := by
  obtain ⟨name, consumed, rest⟩ := place
  obtain ⟨name', consumed', rest'⟩ := place'
  obtain ⟨rfl, rfl, consumed, rest⟩ := renamed
  unfold Reader.location
  cases rest with
  | cons token _ => exact token.location
  | nil =>
      cases consumed with
      | cons token _ => exact token.location
      | nil => exact .ofPositions _ _

end Reader.Renamed

/-- The readers and the locations of two files belong together that are at the same place. -/
def Correspondence.renaming (file file' : String) : Correspondence where
  places := Reader.Renamed file file'
  sites := Location.Renamed file file'
  spots := Location.Renamed file file'
  next := Reader.Renamed.next
  location := Reader.Renamed.location
  single renamed := renamed
  combine := Location.Renamed.combine

namespace Lexer

/-- The same illegal character in two files. -/
structure Error.Renamed (file file' : String) (error error' : Error) : Prop where
  location : Location.Renamed file file' error.location error'.location
  character : error.character = error'.character

theorem tokensFrom_renamed
    (file file' : String)
    (start : Position)
    (chars : List Char) :
    Parallel (Error.Renamed file file') (List.Forall₂ (Token.Renamed file file'))
      (tokensFrom file start chars) (tokensFrom file' start chars) := by
  fun_induction tokensFrom file start chars with
  | case1 start =>
      rw [tokensFrom]
      exact .ok .nil
  | case2 start c rest none =>
      rw [tokensFrom]
      split
      · exact .error ⟨.ofPositions _ _, rfl⟩
      · simp_all
  | case3 start c rest lexeme behind taken shorter ih =>
      rw [tokensFrom_of_munch? file' start taken]
      exact ih.map fun same => .cons ⟨rfl, rfl, .ofPositions _ _⟩ same

/-- Whatever a file is called, its text has the same tokens at the same positions. -/
theorem tokens_renamed
    (file file' text : String) :
    Parallel (Error.Renamed file file') (List.Forall₂ (Token.Renamed file file'))
      (tokens file text) (tokens file' text) :=
  tokensFrom_renamed file file' Position.origin text.toList

theorem printableTokens_renamed
    (file file' text : String) :
    Parallel (Error.Renamed file file') (List.Forall₂ (Token.Renamed file file'))
      (printableTokens file text) (printableTokens file' text) := by
  refine (tokens_renamed file file' text).map fun same => List.rel_filter ?_ same
  intro token token' renamed
  simp only [Token.isPrintable, renamed.tag]

end Lexer

namespace Arithmetic

theorem tokens_renamed
    (file file' text : String) :
    Parallel (Problem.Corresponds (Location.Renamed file file'))
      (List.Forall₂ (Token.Renamed file file')) (tokens file text) (tokens file' text) := by
  unfold tokens
  refine (Lexer.printableTokens_renamed file file' text).mapError fun {error error'} same => ?_
  obtain ⟨here, character⟩ := error
  obtain ⟨there, character'⟩ := error'
  obtain ⟨located, rfl⟩ := same
  exact .reported .lexical located _

/-- Whatever a file is called, its tokens are read as the same tree, or have the same problem. -/
theorem parse_renamed
    {tokens tokens' : List Token}
    (table : LevelTable)
    (same : tokens.Forall₂ (Token.Renamed file file') tokens') :
    Parallel (Problem.Corresponds (Location.Renamed file file'))
      (Node.Corresponds (Location.Renamed file file'))
      (parse table file tokens) (parse table file' tokens') :=
  parseWithin_corresponds (c := .renaming file file') nestingLimit table ⟨rfl, rfl, .nil, same⟩

end Arithmetic
end Precedence
