import Precedence.Proofs.Token.Placement

/-!
# Positions in a source text

The lexer counts rows and columns as it goes from token to token. What it has counted in front
of a token is the position behind the text before it, which can be read off that text at once
(`Position.behind`): the row is one more than the line feeds, and the column one more than the
characters behind the last of them.

The step of the count is one lexeme (`behind_append`), so the tokens of a text and the error
about it stand where the text says (`tokens_located`).
-/

namespace Precedence

namespace Text

/-- The characters of a text behind its last line feed, or all of them if it has none. -/
def lastLine (chars : List Char) : List Char :=
  (chars.reverse.takeWhile (· ≠ '\n')).reverse

theorem lastLine_append_lineFeed
    (front : List Char) :
    lastLine (front ++ ['\n']) = [] := by
  simp [lastLine]

/-- What has no line feed makes the last line longer. -/
theorem lastLine_append
    (front : List Char)
    {back : List Char}
    (noLineFeed : '\n' ∉ back) :
    lastLine (front ++ back) = lastLine front ++ back := by
  have all : ∀ c ∈ back.reverse, decide (c ≠ '\n') = true := by
    intro c there
    refine decide_eq_true ?_
    rintro rfl
    exact noLineFeed (List.mem_reverse.mp there)
  rw [lastLine, List.reverse_append, List.takeWhile_append_of_pos all, List.reverse_append,
    List.reverse_reverse, lastLine]

end Text

namespace Position

/-- The position behind a text. -/
def behind (chars : List Char) : Position :=
  ⟨1 + chars.count '\n', 1 + (Text.lastLine chars).length⟩

theorem behind_nil : behind [] = origin :=
  rfl

end Position

namespace Lexer

variable {fileName text : String}
variable {lexeme : Lexeme}
variable {front lexemes : List Lexeme}
variable {found : List Token}

/-- A line feed is in no lexeme but the ends of lines. -/
theorem Lexeme.Formed.not_mem_lineFeed
    (formed : lexeme.Formed)
    (differs : lexeme.tag ≠ Tag.newline) :
    '\n' ∉ lexeme.chars := by
  cases formed with
  | lineFeed => exact absurd rfl differs
  | carriageReturn => exact absurd rfl differs
  | parenthesis parenthesis =>
      rcases eq_of_isParenthesis parenthesis with rfl | rfl <;> decide
  | run isRun all =>
      intro there
      have inside := all '\n' there
      cases isRun <;> cases inside

/-- An end of a line has one line feed, and it comes last. -/
theorem Lexeme.Formed.ends_lineFeed
    (formed : lexeme.Formed)
    (newline : lexeme.tag = Tag.newline) :
    ∃ start, lexeme.chars = start ++ ['\n'] ∧ '\n' ∉ start := by
  cases formed with
  | lineFeed => exact ⟨[], rfl, by simp⟩
  | carriageReturn => exact ⟨['\r'], rfl, by decide⟩
  | parenthesis _ => exact absurd newline (by decide : Tag.reserved ≠ Tag.newline)
  | run isRun _ =>
      cases newline
      exact absurd isRun (not_isRun_newline _)

/-- Behind a text with a lexeme at its end is where the lexer advances to over the lexeme. -/
theorem behind_append
    (before : List Char)
    (formed : lexeme.Formed) :
    Position.behind (before ++ lexeme.chars) = advance (Position.behind before) lexeme := by
  unfold advance Position.behind
  split
  · rename_i newline
    obtain ⟨start, ends, none⟩ := formed.ends_lineFeed newline
    rw [ends, ← List.append_assoc, Text.lastLine_append_lineFeed]
    simp only [List.count_append, List.count_singleton_self, List.count_eq_zero.mpr none]
    rfl
  · rename_i differs
    have noLineFeed := formed.not_mem_lineFeed differs
    rw [Text.lastLine_append before noLineFeed]
    simp only [List.count_append, List.count_eq_zero.mpr noLineFeed, List.length_append]
    congr 1
    omega

theorem foldl_advance
    (before : List Char)
    (formed : ∀ lexeme ∈ lexemes, lexeme.Formed) :
    lexemes.foldl advance (Position.behind before) =
      Position.behind (before ++ charsOf lexemes) := by
  induction lexemes generalizing before with
  | nil => simp
  | cons lexeme rest ih =>
      obtain ⟨first, others⟩ := List.forall_mem_cons.mp formed
      rw [List.foldl_cons, ← behind_append before first, ih _ others, charsOf_cons,
        List.append_assoc]

/-- What the lexemes in front are, the others are placed behind them. -/
theorem placed_append
    (fileName : String)
    (start : Position)
    (front back : List Lexeme) :
    placed fileName start (front ++ back) =
      placed fileName start front ++ placed fileName (front.foldl advance start) back := by
  induction front generalizing start with
  | nil => rfl
  | cons lexeme front ih =>
      rw [List.cons_append, placed, placed, ih, List.foldl_cons, List.cons_append]

theorem start_lt_advance
    (start : Position)
    (formed : lexeme.Formed) :
    start < advance start lexeme := by
  have positive := List.length_pos_iff.mpr formed.chars_ne_nil
  by_cases newline : lexeme.tag = Tag.newline <;>
    simp [Position.lt_iff, advance, newline, positive]

/-- The second token begins where the first one ends, or else at the beginning of the next row. -/
def Adjoins (token next : Token) : Prop :=
  next.start =
    if token.tag = Tag.newline then ⟨token.start.row + 1, 1⟩ else token.stop

theorem placed_adjoin
    (fileName : String)
    (start : Position)
    (lexemes : List Lexeme) :
    (placed fileName start lexemes).IsChain Adjoins := by
  induction lexemes generalizing start with
  | nil => exact .nil
  | cons lexeme rest ih =>
      refine List.isChain_cons.mpr ⟨?_, ih (advance start lexeme)⟩
      intro next there
      cases rest with
      | nil => cases there
      | cons other rest =>
          cases there
          rfl

/-- Tokens begin one behind the other. -/
theorem placed_increase
    (fileName : String)
    (start : Position)
    (formed : ∀ lexeme ∈ lexemes, lexeme.Formed) :
    (placed fileName start lexemes).Pairwise fun token next => token.start < next.start := by
  induction lexemes generalizing start with
  | nil => exact .nil
  | cons lexeme rest ih =>
      obtain ⟨first, others⟩ := List.forall_mem_cons.mp formed
      refine List.pairwise_cons.mpr ⟨fun next there => ?_, ih (advance start lexeme) others⟩
      exact (start_lt_advance start first).trans_le (start_le_of_mem_placed there)

/-- The location of a piece of one line that stands behind a text. -/
def locationBehind (fileName : String) (before : List Char) (width : Nat) : Location :=
  .ofPositions fileName (.behind before)
    ⟨(Position.behind before).row, (Position.behind before).column + width⟩

/-- A token among the tokens of a text begins behind the texts of the tokens before it. -/
theorem location_of_mem_tokens
    {before after : List Token}
    {token : Token}
    (lexes : tokens fileName text = .ok (before ++ token :: after)) :
    text.toList =
      charsOf (before.map lexemeOf) ++ token.text.toList ++ charsOf (after.map lexemeOf) ∧
    token.location =
      locationBehind fileName (charsOf (before.map lexemeOf)) token.text.length := by
  obtain ⟨segments, _⟩ := segments_of_tokens lexes
  obtain ⟨canonical, spells⟩ := segments_iff.mp segments
  have same := Except.ok.inj (lexes.symm.trans (tokens_of_segments segments fileName))
  rw [List.map_append, List.map_cons] at same spells canonical
  rw [placed_append] at same
  have lengths : before.length =
      (placed fileName Position.origin (before.map lexemeOf)).length := by
    rw [← List.length_map lexemeOf, ← List.length_map lexemeOf, map_lexemeOf_placed]
  obtain ⟨-, same⟩ := List.append_inj same lengths
  have located := congrArg Token.location (List.cons.inj same).1
  have formed : ∀ lexeme ∈ before.map lexemeOf, lexeme.Formed := by
    intro lexeme there
    exact canonical.formed lexeme (List.mem_append_left _ there)
  constructor
  · rw [← spells, charsOf_append, charsOf_cons, List.append_assoc]
    rfl
  · have place := foldl_advance [] formed
    rw [List.nil_append, Position.behind_nil] at place
    rw [located, place, ← String.length_toList]
    rfl

/-- An error about a text is about its first illegal character, behind the text before it. -/
theorem location_of_tokens_error
    {error : Error}
    (fails : tokens fileName text = .error error) :
    ∃ before after,
      FirstIllegal text.toList before error.character after ∧
      error.location = locationBehind fileName before 1 := by
  obtain ⟨before, after, lexemes, first, formed, rfl, located⟩ := tokens_error_inv fails
  have place := foldl_advance [] formed
  rw [List.nil_append, Position.behind_nil] at place
  refine ⟨charsOf lexemes, after, first, ?_⟩
  rw [located, place]
  rfl

/--
Each token stands where the text before it ends, and takes as many columns as it has characters.
Tokens begin one behind the other, each where the one before ends or at the beginning of the
next row. An error is located in the same way, behind the text before the illegal character.
-/
theorem tokens_located
    (fileName text : String) :
    (∀ found, tokens fileName text = .ok found →
      (∀ before token after, found = before ++ token :: after →
        text.toList =
          charsOf (before.map lexemeOf) ++ token.text.toList ++ charsOf (after.map lexemeOf) ∧
        token.location =
          locationBehind fileName (charsOf (before.map lexemeOf)) token.text.length) ∧
      (found.Pairwise fun token next => token.start < next.start) ∧
      found.IsChain Adjoins) ∧
    ∀ error, tokens fileName text = .error error →
      ∃ before after,
        FirstIllegal text.toList before error.character after ∧
        error.location = locationBehind fileName before 1 := by
  refine ⟨fun found lexes => ⟨?_, ?_, ?_⟩, fun error => location_of_tokens_error⟩
  · rintro before token after rfl
    exact location_of_mem_tokens lexes
  · obtain ⟨segments, _⟩ := segments_of_tokens lexes
    have same := Except.ok.inj (lexes.symm.trans (tokens_of_segments segments fileName))
    rw [same]
    exact placed_increase fileName _ (segments_iff.mp segments).1.formed
  · obtain ⟨lexemes, rfl⟩ := exists_placed_of_tokens lexes
    exact placed_adjoin fileName _ lexemes

end Lexer
end Precedence
