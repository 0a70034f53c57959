import Mathlib.Computability.RegularExpressions
import Mathlib.Data.List.Chain
import Precedence.Proofs.Token.Legality

/-!
# The segmentation of a text

The tags of the lexer have regular expressions. A segmentation of a text are pieces with tags
that spell the text and match the expressions of their tags, where no two runs of one tag
stand side by side. Segmentations are just the canonical lists of lexemes (`segments_iff`), so
a legal text has one, and this one is what the lexer finds (`tokens_segmentation`).
-/

namespace Precedence
namespace Lexer

open RegularExpression

variable {l chars : List Char}
variable {lexeme : Lexeme}
variable {lexemes : List Lexeme}

/-- One of the given characters. -/
def oneOf (chars : List Char) : RegularExpression Char :=
  (chars.map char).sum

/-- One or more matches of an expression. -/
def oneOrMore (expression : RegularExpression Char) : RegularExpression Char :=
  expression * expression.star

/-- The regular expression of a tag. -/
def expression (tag : Tag) : RegularExpression Char :=
  if tag = Tag.newline then (1 + char '\r') * char '\n'
  else if tag = Tag.space then oneOrMore (oneOf ['\t', ' '])
  else if tag = Tag.reserved then oneOf ['(', ')']
  else if tag = Tag.integer then oneOrMore (oneOf digits)
  else if tag = Tag.operator then oneOrMore (oneOf ['+', '-', '*', '/', '^'])
  else 0

/--
Pieces of a text with their tags: each matches the expression of its tag, together they
spell the text, and no run is continued by the piece behind it.
-/
structure Segments (lexemes : List Lexeme) (chars : List Char) : Prop where
  nonempty : ∀ lexeme ∈ lexemes, lexeme.chars ≠ []
  spells : charsOf lexemes = chars
  belongs : ∀ lexeme ∈ lexemes, lexeme.chars ∈ (expression lexeme.tag).matches'
  apart : lexemes.IsChain fun a b =>
    ¬ (a.tag = b.tag ∧ a.tag ∈ [Tag.integer, Tag.operator, Tag.space])

theorem mem_oneOf_iff :
    l ∈ (oneOf chars).matches' ↔ ∃ c ∈ chars, l = [c] := by
  unfold oneOf
  induction chars with
  | nil =>
      simp [Language.notMem_zero]
  | cons c chars ih =>
      simp only [List.map_cons, List.sum_cons, matches'_add, Language.mem_add, ih, matches'_char,
        List.exists_mem_cons_iff]
      rfl

theorem mem_oneOrMore_iff :
    l ∈ (oneOrMore (oneOf chars)).matches' ↔ l ≠ [] ∧ ∀ c ∈ l, c ∈ chars := by
  simp only [oneOrMore, matches'_mul, matches'_star, Language.mem_mul, Language.mem_kstar,
    mem_oneOf_iff]
  constructor
  · rintro ⟨_, ⟨c, there, rfl⟩, _, ⟨pieces, rfl, single⟩, rfl⟩
    refine ⟨by simp, ?_⟩
    intro d inside
    rcases List.mem_cons.mp inside with rfl | inside
    · exact there
    · obtain ⟨piece, isPiece, inside⟩ := List.mem_flatten.mp inside
      obtain ⟨e, there, rfl⟩ := single piece isPiece
      rw [List.mem_singleton.mp inside]
      exact there
  · rintro ⟨nonempty, all⟩
    obtain ⟨c, rest, rfl⟩ := List.exists_cons_of_ne_nil nonempty
    have pieces : rest = (rest.map ([·])).flatten := by
      rw [← List.flatMap_def, List.flatMap_singleton']
    refine ⟨[c], ⟨c, all c (by simp), rfl⟩, rest, ⟨rest.map ([·]), pieces, ?_⟩, rfl⟩
    intro piece isPiece
    obtain ⟨d, there, rfl⟩ := List.mem_map.mp isPiece
    exact ⟨d, all d (by simp [there]), rfl⟩

theorem mem_expression_newline_iff :
    l ∈ (expression Tag.newline).matches' ↔ l = ['\n'] ∨ l = ['\r', '\n'] := by
  simp only [expression, if_true, matches'_mul, matches'_add, matches'_epsilon, matches'_char,
    Language.mem_mul, Language.mem_add, Language.mem_one]
  constructor
  · rintro ⟨_, rfl | rfl, _, rfl, rfl⟩
    · exact .inl rfl
    · exact .inr rfl
  · rintro (rfl | rfl)
    · exact ⟨[], .inl rfl, ['\n'], rfl, rfl⟩
    · exact ⟨['\r'], .inr rfl, ['\n'], rfl, rfl⟩

theorem mem_expression_reserved_iff :
    l ∈ (expression Tag.reserved).matches' ↔ ∃ c, isParenthesis c = true ∧ l = [c] := by
  have same : expression Tag.reserved = oneOf ['(', ')'] := by
    simp [expression, Tag.reserved, Tag.newline, Tag.space]
  simp [same, mem_oneOf_iff, isParenthesis]

/-- The expression of a run matches its class, one or more times. -/
theorem mem_expression_run_iff
    {tag : Tag}
    {inClass : Char → Bool}
    (isRun : IsRun tag inClass) :
    l ∈ (expression tag).matches' ↔ l ≠ [] ∧ ∀ c ∈ l, inClass c = true := by
  cases isRun with
  | space =>
      have same : expression Tag.space = oneOrMore (oneOf ['\t', ' ']) := by
        simp [expression, Tag.newline, Tag.space]
      simp [same, mem_oneOrMore_iff, isSpace, or_comm]
  | integer =>
      have same : expression Tag.integer = oneOrMore (oneOf digits) := by
        simp [expression, Tag.reserved, Tag.newline, Tag.space, Tag.integer]
      simp [same, mem_oneOrMore_iff, isDigit_iff]
  | operator =>
      have same : expression Tag.operator = oneOrMore (oneOf ['+', '-', '*', '/', '^']) := by
        simp [expression, Tag.reserved, Tag.newline, Tag.space, Tag.integer, Tag.operator]
      simp [same, mem_oneOrMore_iff, isOperator, or_assoc]

/-- Lexemes are well formed exactly if they match the expressions of their tags. -/
theorem formed_iff :
    lexeme.Formed ↔ lexeme.chars ∈ (expression lexeme.tag).matches' := by
  obtain ⟨tag, chars⟩ := lexeme
  have run : ∀ {inClass}, IsRun tag inClass → chars ≠ [] ∧ (∀ c ∈ chars, inClass c = true) →
      Lexeme.Formed ⟨tag, chars⟩ := by
    rintro inClass isRun ⟨nonempty, all⟩
    obtain ⟨c, rest, rfl⟩ := List.exists_cons_of_ne_nil nonempty
    exact .run isRun all
  constructor
  · intro formed
    cases formed with
    | lineFeed => exact mem_expression_newline_iff.mpr (.inl rfl)
    | carriageReturn => exact mem_expression_newline_iff.mpr (.inr rfl)
    | parenthesis parenthesis => exact mem_expression_reserved_iff.mpr ⟨_, parenthesis, rfl⟩
    | run isRun all => exact (mem_expression_run_iff isRun).mpr ⟨by simp, all⟩
  · intro belongs
    by_cases newline : tag = Tag.newline
    · subst newline
      rcases mem_expression_newline_iff.mp belongs with rfl | rfl
      · exact .lineFeed
      · exact .carriageReturn
    by_cases reserved : tag = Tag.reserved
    · subst reserved
      obtain ⟨c, parenthesis, rfl⟩ := mem_expression_reserved_iff.mp belongs
      exact .parenthesis parenthesis
    by_cases space : tag = Tag.space
    · subst space
      exact run .space ((mem_expression_run_iff .space).mp belongs)
    by_cases integer : tag = Tag.integer
    · subst integer
      exact run .integer ((mem_expression_run_iff .integer).mp belongs)
    by_cases operator : tag = Tag.operator
    · subst operator
      exact run .operator ((mem_expression_run_iff .operator).mp belongs)
    · simp [expression, newline, reserved, space, integer, operator, Language.notMem_zero]
        at belongs

theorem joins_iff
    (next : Lexeme) :
    lexeme.Joins next ↔
      lexeme.tag = next.tag ∧ lexeme.tag ∈ [Tag.integer, Tag.operator, Tag.space] := by
  unfold Lexeme.Joins
  refine and_congr_right fun _ => ?_
  simp only [List.mem_cons, List.not_mem_nil, or_false]
  constructor
  · rintro ⟨inClass, isRun⟩
    generalize lexeme.tag = tag at isRun
    cases isRun <;> simp
  · rintro (same | same | same) <;> rw [same]
    · exact ⟨_, .integer⟩
    · exact ⟨_, .operator⟩
    · exact ⟨_, .space⟩

theorem canonical_iff :
    Canonical lexemes ↔
      (∀ lexeme ∈ lexemes, lexeme.Formed) ∧ lexemes.IsChain fun a b => ¬ a.Joins b := by
  induction lexemes with
  | nil =>
      simp [Canonical.nil]
  | cons lexeme rest ih =>
      rw [List.forall_mem_cons, List.isChain_cons]
      constructor
      · intro canonical
        cases canonical with
        | cons formed apart later =>
            obtain ⟨all, chain⟩ := ih.mp later
            exact ⟨⟨formed, all⟩, apart, chain⟩
      · rintro ⟨⟨formed, all⟩, apart, chain⟩
        exact .cons formed apart (ih.mpr ⟨all, chain⟩)

/-- The segmentations of a text are the canonical lists of lexemes that spell it. -/
theorem segments_iff :
    Segments lexemes chars ↔ Canonical lexemes ∧ charsOf lexemes = chars := by
  simp only [canonical_iff, joins_iff, formed_iff]
  constructor
  · rintro ⟨_, spells, belongs, apart⟩
    exact ⟨⟨belongs, apart⟩, spells⟩
  · rintro ⟨⟨belongs, apart⟩, spells⟩
    exact ⟨fun lexeme there => (formed_iff.mpr (belongs lexeme there)).chars_ne_nil, spells,
      belongs, apart⟩

section Texts

variable {text : String}

/-- The lexer finds every segmentation of a text. -/
theorem tokens_of_segments
    (segments : Segments lexemes text.toList)
    (fileName : String) :
    tokens fileName text = .ok (placed fileName Position.origin lexemes) := by
  obtain ⟨canonical, spells⟩ := segments_iff.mp segments
  rw [tokens, ← spells, tokensFrom_of_canonical fileName Position.origin canonical]

theorem exists_segments
    (legal : AllLegal chars) :
    ∃ lexemes, Segments lexemes chars := by
  obtain ⟨lexemes, canonical, spells⟩ := exists_canonical legal
  exact ⟨lexemes, segments_iff.mpr ⟨canonical, spells⟩⟩

theorem tokens_of_illegal
    (illegal : ¬ AllLegal text.toList)
    (fileName : String) :
    ∃ front c back location,
      FirstIllegal text.toList front c back ∧
      tokens fileName text = .error ⟨location, c⟩ := by
  obtain ⟨front, c, back, first⟩ := exists_firstIllegal illegal
  obtain ⟨lexemes, _, _, fails⟩ := tokensFrom_of_firstIllegal first fileName Position.origin
  exact ⟨front, c, back, _, first, fails⟩

theorem exists_tokens_iff
    (fileName : String) :
    (∃ found, tokens fileName text = .ok found) ↔ AllLegal text.toList := by
  constructor
  · rintro ⟨found, lexes⟩
    by_contra illegal
    obtain ⟨_, _, _, _, _, fails⟩ := tokens_of_illegal illegal fileName
    cases fails.symm.trans lexes
  · intro legal
    obtain ⟨lexemes, segments⟩ := exists_segments legal
    exact ⟨_, tokens_of_segments segments fileName⟩

/-- What is reported instead of tokens is the first illegal character, behind some lexemes. -/
theorem tokens_error_inv
    {fileName : String}
    {error : Error}
    (fails : tokens fileName text = .error error) :
    ∃ front back lexemes,
      FirstIllegal text.toList front error.character back ∧
      (∀ lexeme ∈ lexemes, lexeme.Formed) ∧ charsOf lexemes = front ∧
      error.location = locate fileName (lexemes.foldl advance Position.origin) 1 := by
  have illegal : ¬ AllLegal text.toList := by
    intro legal
    obtain ⟨found, lexes⟩ := (exists_tokens_iff fileName).mpr legal
    cases lexes.symm.trans fails
  obtain ⟨front, c, back, first⟩ := exists_firstIllegal illegal
  obtain ⟨lexemes, formed, spells, fails'⟩ :=
    tokensFrom_of_firstIllegal first fileName Position.origin
  cases fails'.symm.trans fails
  exact ⟨front, back, lexemes, first, formed, spells, rfl⟩

/-- What is reported instead of tokens is a character that does not end a line, in the file. -/
theorem tokens_error
    {fileName : String}
    {error : Error}
    (fails : tokens fileName text = .error error) :
    error.location.fileName = fileName ∧ error.character ≠ '\n' := by
  obtain ⟨_, _, _, first, _, _, located⟩ := tokens_error_inv fails
  refine ⟨by rw [located]; rfl, fun lineFeed => ?_⟩
  exact first.illegal (.inl (by rw [lineFeed]; decide))

/-- What the lexer finds is the only segmentation of the text. -/
theorem segments_of_tokens
    {fileName : String}
    {found : List Token}
    (lexes : tokens fileName text = .ok found) :
    Segments (found.map lexemeOf) text.toList ∧
      ∀ lexemes, Segments lexemes text.toList → lexemes = found.map lexemeOf := by
  have unique : ∀ lexemes, Segments lexemes text.toList → lexemes = found.map lexemeOf := by
    intro lexemes segments
    cases lexes.symm.trans (tokens_of_segments segments fileName)
    rw [map_lexemeOf_placed]
  obtain ⟨lexemes, segments⟩ := exists_segments ((exists_tokens_iff fileName).mp ⟨found, lexes⟩)
  exact ⟨unique lexemes segments ▸ segments, unique⟩

theorem printableTokens_inv
    {fileName : String}
    {found : List Token}
    (lexes : printableTokens fileName text = .ok found) :
    ∃ whole, tokens fileName text = .ok whole ∧ found = whole.filter Token.isPrintable := by
  unfold printableTokens at lexes
  cases all : tokens fileName text with
  | error error =>
      rw [all] at lexes
      cases lexes
  | ok whole =>
      rw [all] at lexes
      cases lexes
      exact ⟨whole, rfl, rfl⟩

/-- A token that a grammar sees is well formed, and printable. -/
theorem formed_of_mem_printableTokens
    {fileName : String}
    {found : List Token}
    {token : Token}
    (lexes : printableTokens fileName text = .ok found)
    (there : token ∈ found) :
    (lexemeOf token).Formed ∧ (lexemeOf token).isPrintable = true := by
  obtain ⟨whole, all, rfl⟩ := printableTokens_inv lexes
  obtain ⟨inWhole, printable⟩ := List.mem_filter.mp there
  obtain ⟨canonical, _⟩ := segments_iff.mp (segments_of_tokens all).1
  exact ⟨canonical.formed _ (List.mem_map_of_mem inWhole), printable⟩

/--
A text is cut exactly if all its characters are legal, and otherwise the first one that is
not is reported. The tags and texts of the tokens are the only segmentation of the text.
-/
theorem tokens_segmentation
    (fileName text : String) :
    ((∃ found, tokens fileName text = .ok found) ↔ AllLegal text.toList) ∧
    (¬ AllLegal text.toList →
      ∃ front c back location,
        FirstIllegal text.toList front c back ∧
        (tokens fileName text).mapError Error.diagnostic =
          .error ⟨.lexical, some location, "illegal character: " ++ String.singleton c⟩) ∧
    ∀ found, tokens fileName text = .ok found →
      Segments (found.map lexemeOf) text.toList ∧
      ∀ lexemes, Segments lexemes text.toList → lexemes = found.map lexemeOf := by
  refine ⟨exists_tokens_iff fileName, ?_, fun found => segments_of_tokens⟩
  intro illegal
  obtain ⟨front, c, back, location, first, fails⟩ := tokens_of_illegal illegal fileName
  refine ⟨front, c, back, location, first, ?_⟩
  rw [fails]
  rfl

end Texts

end Lexer
end Precedence
