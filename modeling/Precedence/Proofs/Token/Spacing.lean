import Precedence.Proofs.Token.Expression

/-!
# White space between lexemes

The lexemes that a grammar sees may be written with any white space in front of, between and
behind them: the lexer gives them back, and nothing else (`printableTokens_of_spaced`). Only two
runs of one class, two integers or two operators, need white space between them, since they
would be read as one run without it.

White space is itself a list of lexemes, none of which a grammar sees (`IsGap.exists_canonical`),
and lexemes of different tags never join.
-/

namespace Precedence
namespace Lexer

/-- White space: spaces, tabs and ends of lines. -/
inductive IsGap : List Char → Prop
  | nil : IsGap []
  | space
      {c : Char}
      {rest : List Char}
      (isSpace : isSpace c = true)
      (later : IsGap rest) :
      IsGap (c :: rest)
  | lineFeed
      {rest : List Char}
      (later : IsGap rest) :
      IsGap ('\n' :: rest)
  | carriageReturn
      {rest : List Char}
      (later : IsGap rest) :
      IsGap ('\r' :: '\n' :: rest)

/-- A lexeme and the white space behind it. -/
structure Spaced where
  lexeme : Lexeme
  gap : List Char

namespace Spaced

/-- The characters of a lexeme and of the white space behind it. -/
def chars (piece : Spaced) : List Char :=
  piece.lexeme.chars ++ piece.gap

/-- Whether two lexemes are read as two: runs of one class have white space between them. -/
def Parts (piece next : Spaced) : Prop :=
  piece.lexeme.tag = next.lexeme.tag ∧ piece.lexeme.tag ∈ [Tag.integer, Tag.operator] →
    piece.gap ≠ []

instance : DecidableRel Parts :=
  fun _ _ => inferInstanceAs (Decidable (_ → _))

end Spaced

variable {gap : List Char}
variable {lexeme next : Lexeme}
variable {front back : List Lexeme}

theorem Canonical.append
    (first : Canonical front)
    (second : Canonical back)
    (apart : ∀ lexeme ∈ front, ∀ next ∈ back.head?, ¬ lexeme.Joins next) :
    Canonical (front ++ back) := by
  induction first with
  | nil => exact second
  | @cons lexeme rest formed here _ ih =>
      obtain ⟨last, others⟩ := List.forall_mem_cons.mp apart
      refine .cons formed ?_ (ih others)
      cases rest with
      | nil => exact last
      | cons other rest => exact here

/-- White space is made of characters that no lexeme begins with that a grammar sees. -/
theorem IsGap.legal
    (isGap : IsGap gap) :
    AllLegal gap ∧ ∀ c ∈ gap, isSpace c = true ∨ c = '\n' ∨ c = '\r' := by
  induction isGap with
  | nil => exact ⟨fun front c back split => by simp at split, by simp⟩
  | space isSpace _ ih =>
      refine ⟨ih.1.cons (.inl (IsRun.space.mem_legalChars isSpace)), ?_⟩
      exact List.forall_mem_cons.mpr ⟨.inl isSpace, ih.2⟩
  | lineFeed _ ih =>
      exact ⟨ih.1.cons (.inl (by decide)), List.forall_mem_cons.mpr ⟨.inr (.inl rfl), ih.2⟩⟩
  | carriageReturn _ ih =>
      refine ⟨(ih.1.cons (.inl (by decide))).cons (.inr ⟨rfl, rfl⟩), ?_⟩
      exact List.forall_mem_cons.mpr
        ⟨.inr (.inr rfl), List.forall_mem_cons.mpr ⟨.inr (.inl rfl), ih.2⟩⟩

/-- A grammar does not see a lexeme that is made of white space. -/
theorem Lexeme.Formed.not_isPrintable
    (formed : lexeme.Formed)
    (blank : ∀ c ∈ lexeme.chars, isSpace c = true ∨ c = '\n' ∨ c = '\r') :
    lexeme.isPrintable = false := by
  cases formed with
  | lineFeed => rfl
  | carriageReturn => rfl
  | parenthesis parenthesis =>
      have blank := blank _ List.mem_cons_self
      rcases eq_of_isParenthesis parenthesis with rfl | rfl <;> exact absurd blank (by decide)
  | run isRun all =>
      have inside := all _ List.mem_cons_self
      cases isRun with
      | space => rfl
      | integer =>
          rcases blank _ List.mem_cons_self with space | rfl | rfl
          · rw [IsRun.integer.apart .space (by decide) inside] at space
            cases space
          · cases inside
          · cases inside
      | operator =>
          rcases blank _ List.mem_cons_self with space | rfl | rfl
          · rw [IsRun.operator.apart .space (by decide) inside] at space
            cases space
          · cases inside
          · cases inside

/-- White space is a canonical list of lexemes, none of which a grammar sees. -/
theorem IsGap.exists_canonical
    (isGap : IsGap gap) :
    ∃ lexemes,
      Canonical lexemes ∧ charsOf lexemes = gap ∧
      ∀ lexeme ∈ lexemes, lexeme.isPrintable = false := by
  obtain ⟨legal, blank⟩ := isGap.legal
  obtain ⟨lexemes, canonical, rfl⟩ := Lexer.exists_canonical legal
  refine ⟨lexemes, canonical, rfl, fun lexeme there => ?_⟩
  refine (canonical.formed lexeme there).not_isPrintable fun c inside => blank c ?_
  exact List.mem_flatMap.mpr ⟨lexeme, there, inside⟩

/-- What a grammar sees does not join with what it does not see. -/
theorem Lexeme.not_joins
    (differ : lexeme.isPrintable ≠ next.isPrintable) :
    ¬ lexeme.Joins next := by
  rintro ⟨same, _⟩
  exact differ (by rw [Lexeme.isPrintable, same, Lexeme.isPrintable])

/-- White space may be written in front of what a grammar sees, which sees no more for it. -/
theorem IsGap.canonical_append
    {lexemes : List Lexeme}
    (isGap : IsGap gap)
    (later : Canonical lexemes)
    (seen : ∀ next ∈ lexemes.head?, next.isPrintable = true) :
    ∃ blanks,
      Canonical (blanks ++ lexemes) ∧ charsOf blanks = gap ∧
      (∀ lexeme ∈ blanks, lexeme.isPrintable = false) ∧
      (blanks ++ lexemes).filter Lexeme.isPrintable = lexemes.filter Lexeme.isPrintable := by
  obtain ⟨blanks, canonical, spells, unseen⟩ := isGap.exists_canonical
  have none : blanks.filter Lexeme.isPrintable = [] :=
    List.filter_eq_nil_iff.mpr fun lexeme there => by simp [unseen lexeme there]
  refine ⟨blanks, canonical.append later fun lexeme there next isNext => ?_, spells, unseen, ?_⟩
  · exact Lexeme.not_joins (by simp [unseen lexeme there, seen next isNext])
  · rw [List.filter_append, none, List.nil_append]

/-- Lexemes that touch do not join, unless they are runs of one class. -/
theorem Spaced.Parts.not_joins
    {piece next : Spaced}
    (part : piece.Parts next)
    (seen : piece.lexeme.isPrintable = true)
    (touch : piece.gap = []) :
    ¬ piece.lexeme.Joins next.lexeme := by
  rw [joins_iff]
  rintro ⟨same, isRun⟩
  simp only [List.mem_cons, List.not_mem_nil, or_false] at isRun
  rcases isRun with integer | operator | space
  · exact part ⟨same, by simp [integer]⟩ touch
  · exact part ⟨same, by simp [operator]⟩ touch
  · simp [Lexeme.isPrintable, space] at seen

/-- Lexemes with white space behind each of them are cut into these and the white space. -/
theorem exists_canonical_of_spaced
    {pieces : List Spaced}
    (written : ∀ piece ∈ pieces,
      piece.lexeme.Formed ∧ piece.lexeme.isPrintable = true ∧ IsGap piece.gap)
    (part : pieces.IsChain Spaced.Parts) :
    ∃ lexemes,
      Canonical lexemes ∧ charsOf lexemes = pieces.flatMap Spaced.chars ∧
      lexemes.filter Lexeme.isPrintable = pieces.map Spaced.lexeme ∧
      ∀ next ∈ lexemes.head?,
        next.isPrintable = true ∧ ∃ piece ∈ pieces.head?, piece.lexeme = next := by
  induction pieces with
  | nil => exact ⟨[], .nil, rfl, rfl, by simp⟩
  | cons piece pieces ih =>
      obtain ⟨⟨formed, seen, isGap⟩, others⟩ := List.forall_mem_cons.mp written
      obtain ⟨here, part⟩ := List.isChain_cons.mp part
      obtain ⟨lexemes, later, spells, kept, begins⟩ := ih others part
      obtain ⟨blanks, canonical, fills, unseen, sees⟩ :=
        isGap.canonical_append later fun next there => (begins next there).1
      have apart : ∀ next ∈ (blanks ++ lexemes).head?, ¬ piece.lexeme.Joins next := by
        intro next there
        cases blanks with
        | nil =>
            obtain ⟨_, other, isOther, rfl⟩ := begins next there
            exact (here other isOther).not_joins seen fills.symm
        | cons blank blanks =>
            cases there
            exact Lexeme.not_joins (by simp [seen, unseen next List.mem_cons_self])
      refine ⟨piece.lexeme :: (blanks ++ lexemes), .cons formed apart canonical, ?_, ?_, ?_⟩
      · rw [charsOf_cons, charsOf_append, fills, spells, List.flatMap_cons, Spaced.chars,
          List.append_assoc]
      · rw [List.filter_cons_of_pos seen, sees, kept, List.map_cons]
      · rintro next ⟨⟩
        exact ⟨seen, piece, rfl, rfl⟩

/--
Lexemes that a grammar sees are given back by the lexer, whatever white space is written in
front of them, between them and behind them, if there is some between two integers and between
two operators.
-/
theorem printableTokens_of_spaced
    (fileName : String)
    {before : List Char}
    {pieces : List Spaced}
    (isGap : IsGap before)
    (written : ∀ piece ∈ pieces,
      piece.lexeme.Formed ∧ piece.lexeme.isPrintable = true ∧ IsGap piece.gap)
    (part : pieces.IsChain Spaced.Parts) :
    ∃ tokens,
      printableTokens fileName (String.ofList (before ++ pieces.flatMap Spaced.chars)) =
        .ok tokens ∧
      tokens.map lexemeOf = pieces.map Spaced.lexeme := by
  obtain ⟨lexemes, later, spells, kept, begins⟩ := exists_canonical_of_spaced written part
  obtain ⟨blanks, canonical, rfl, _, sees⟩ :=
    isGap.canonical_append later fun next there => (begins next there).1
  obtain ⟨tokens, lexes, same, _⟩ := printableTokens_of_canonical fileName canonical
  refine ⟨tokens, ?_, ?_⟩
  · rw [← lexes, charsOf_append, spells]
  · rw [same, sees, kept]

/-- Two integers and two operators, with white space of each kind. -/
theorem printableTokens_of_spaced_integers :
    let pieces : List Spaced :=
      [⟨⟨Tag.reserved, ['(']⟩, []⟩, ⟨⟨Tag.integer, ['1', '2']⟩, ['\t']⟩,
        ⟨⟨Tag.integer, ['3']⟩, []⟩, ⟨⟨Tag.reserved, [')']⟩, ['\r', '\n']⟩,
        ⟨⟨Tag.operator, ['-']⟩, [' ']⟩, ⟨⟨Tag.operator, ['-', '+']⟩, [' ']⟩]
    ∃ tokens,
      printableTokens "sum" (String.ofList (['\n'] ++ pieces.flatMap Spaced.chars)) =
        .ok tokens ∧
      tokens.map lexemeOf = pieces.map Spaced.lexeme := by
  intro pieces
  have blank : IsGap [' '] := .space rfl .nil
  have tab : IsGap ['\t'] := .space rfl .nil
  have written : ∀ piece ∈ pieces,
      piece.lexeme.Formed ∧ piece.lexeme.isPrintable = true ∧ IsGap piece.gap := by
    simp only [pieces, List.forall_mem_cons]
    have digits : ∀ d ∈ ['1', '2'], d.isDigit = true := List.all_eq_true.mp rfl
    have digit : ∀ d ∈ ['3'], d.isDigit = true := List.all_eq_true.mp rfl
    have sign : ∀ d ∈ ['-'], isOperator d = true := List.all_eq_true.mp rfl
    have signs : ∀ d ∈ ['-', '+'], isOperator d = true := List.all_eq_true.mp rfl
    exact ⟨⟨.parenthesis rfl, rfl, .nil⟩, ⟨.run .integer digits, rfl, tab⟩,
      ⟨.run .integer digit, rfl, .nil⟩, ⟨.parenthesis rfl, rfl, .carriageReturn .nil⟩,
      ⟨.run .operator sign, rfl, blank⟩, ⟨.run .operator signs, rfl, blank⟩,
      by simp⟩
  have part : pieces.IsChain Spaced.Parts := by
    decide
  exact printableTokens_of_spaced "sum" (.lineFeed .nil) written part

end Lexer
end Precedence
