import Precedence.Token.Lexer

/-!
# Segmentation into lexemes

A list of lexemes is canonical when each of them is well formed and none of them would go on
into the one behind it. The lexer cuts a text that is written as a canonical list into just
this list.

* `Lexeme.Formed` says what a lexeme of each tag may be; only runs have more than one
  character of a class.
* `Canonical` adds that two runs of one class never touch.
* `tokensFrom_of_canonical` gives the tokens of the text: the lexemes, each at its place.
* `printableTokens_of_canonical` gives what a grammar sees of them.
-/

namespace Precedence
namespace Lexer

/-- The tags of runs, with the classes of their characters. -/
inductive IsRun : Tag → (Char → Bool) → Prop
  | space : IsRun Tag.space isSpace
  | integer : IsRun Tag.integer Char.isDigit
  | operator : IsRun Tag.operator isOperator

namespace Lexeme

/-- A piece of text with the tag that the lexer gives to it. -/
inductive Formed : Lexeme → Prop
  | lineFeed : Formed ⟨Tag.newline, ['\n']⟩
  | carriageReturn : Formed ⟨Tag.newline, ['\r', '\n']⟩
  | parenthesis
      {c : Char}
      (isParenthesis : isParenthesis c = true) :
      Formed ⟨Tag.reserved, [c]⟩
  | run
      {tag : Tag}
      {inClass : Char → Bool}
      {c : Char}
      {rest : List Char}
      (isRun : IsRun tag inClass)
      (all : ∀ d ∈ c :: rest, inClass d = true) :
      Formed ⟨tag, c :: rest⟩

/-- Whether a lexeme would go on into another one behind it. -/
def Joins (lexeme next : Lexeme) : Prop :=
  lexeme.tag = next.tag ∧ ∃ inClass, IsRun lexeme.tag inClass

/-- Whether a grammar sees the lexeme. -/
def isPrintable (lexeme : Lexeme) : Bool :=
  lexeme.tag != Tag.newline && lexeme.tag != Tag.space

end Lexeme

/-- Well-formed lexemes, no two of which join where they touch. -/
inductive Canonical : List Lexeme → Prop
  | nil : Canonical []
  | cons
      {lexeme : Lexeme}
      {rest : List Lexeme}
      (formed : lexeme.Formed)
      (apart : ∀ next ∈ rest.head?, ¬ lexeme.Joins next)
      (later : Canonical rest) :
      Canonical (lexeme :: rest)

/-- The text of a list of lexemes. -/
def charsOf (lexemes : List Lexeme) : List Char :=
  lexemes.flatMap Lexeme.chars

@[simp] theorem charsOf_nil : charsOf [] = [] :=
  rfl

@[simp] theorem charsOf_cons
    (lexeme : Lexeme)
    (rest : List Lexeme) :
    charsOf (lexeme :: rest) = lexeme.chars ++ charsOf rest :=
  List.flatMap_cons

@[simp] theorem charsOf_append
    (front back : List Lexeme) :
    charsOf (front ++ back) = charsOf front ++ charsOf back :=
  List.flatMap_append

/-- The tokens of a list of lexemes, the first of which begins at the given position. -/
def placed (fileName : String) : Position → List Lexeme → List Token
  | _, [] => []
  | start, lexeme :: rest =>
      tokenAt fileName start lexeme :: placed fileName (advance start lexeme) rest

section Classes

variable {tag tag' : Tag}
variable {inClass inClass' : Char → Bool}
variable {c : Char}

theorem eq_of_isSpace
    (space : isSpace c = true) :
    c = ' ' ∨ c = '\t' := by
  simpa only [isSpace, Bool.or_eq_true, decide_eq_true_eq] using space

theorem eq_of_isParenthesis
    (parenthesis : isParenthesis c = true) :
    c = '(' ∨ c = ')' := by
  simpa only [isParenthesis, Bool.or_eq_true, decide_eq_true_eq] using parenthesis

theorem eq_of_isOperator
    (operator : isOperator c = true) :
    c = '+' ∨ c = '-' ∨ c = '*' ∨ c = '/' ∨ c = '^' := by
  simpa only [isOperator, Bool.or_eq_true, decide_eq_true_eq, or_assoc] using operator

theorem ne_of_inClass
    {other : Char}
    (inside : inClass c = true)
    (outside : inClass other = false) :
    c ≠ other := by
  rintro rfl
  rw [inside] at outside
  cases outside

theorem IsRun.tag_ne_reserved
    (isRun : IsRun tag inClass) :
    tag ≠ Tag.reserved := by
  cases isRun <;> decide

/-- The characters of one class of runs are in no other one. -/
theorem IsRun.apart
    (isRun : IsRun tag inClass)
    (isRun' : IsRun tag' inClass')
    (differ : tag ≠ tag')
    (inside : inClass c = true) :
    inClass' c = false := by
  cases isRun with
  | space =>
      rcases eq_of_isSpace inside with rfl | rfl <;> cases isRun' <;>
        first | rfl | exact absurd rfl differ
  | operator =>
      rcases eq_of_isOperator inside with rfl | rfl | rfl | rfl | rfl <;> cases isRun' <;>
        first | rfl | exact absurd rfl differ
  | integer =>
      cases isRun' with
      | integer =>
          exact absurd rfl differ
      | space =>
          apply Bool.eq_false_iff.mpr
          intro space
          rcases eq_of_isSpace space with rfl | rfl <;> cases inside
      | operator =>
          apply Bool.eq_false_iff.mpr
          intro operator
          rcases eq_of_isOperator operator with rfl | rfl | rfl | rfl | rfl <;> cases inside

/-- What is not of a class of runs begins with no character of it. -/
theorem Lexeme.Formed.head_apart
    {lexeme : Lexeme}
    (formed : lexeme.Formed)
    (isRun : IsRun tag inClass)
    (differ : lexeme.tag ≠ tag) :
    ∃ c rest, lexeme.chars = c :: rest ∧ inClass c = false := by
  cases formed with
  | lineFeed =>
      exact ⟨_, _, rfl, by cases isRun <;> rfl⟩
  | carriageReturn =>
      exact ⟨_, _, rfl, by cases isRun <;> rfl⟩
  | parenthesis parenthesis =>
      refine ⟨_, _, rfl, ?_⟩
      rcases eq_of_isParenthesis parenthesis with rfl | rfl <;> cases isRun <;> rfl
  | run isRun' all =>
      exact ⟨_, _, rfl, isRun'.apart isRun differ (all _ List.mem_cons_self)⟩

end Classes

section Munch

variable {tag : Tag}
variable {inClass : Char → Bool}
variable {c : Char}

/-- A run begins with any character of its class. -/
theorem munch?_of_inClass
    (isRun : IsRun tag inClass)
    (inside : inClass c = true)
    (rest : List Char) :
    munch? c rest = some (run tag inClass c rest) := by
  have notLineFeed : c ≠ '\n' := ne_of_inClass inside (by cases isRun <;> rfl)
  have notReturn : c ≠ '\r' := ne_of_inClass inside (by cases isRun <;> rfl)
  have notParenthesis : isParenthesis c = false := by
    apply Bool.eq_false_iff.mpr
    intro parenthesis
    rcases eq_of_isParenthesis parenthesis with rfl | rfl <;> cases isRun <;> cases inside
  unfold munch?
  rw [if_neg notLineFeed, if_neg notReturn]
  cases isRun with
  | space =>
      rw [if_pos inside]
  | integer =>
      have notSpace := IsRun.integer.apart IsRun.space (by decide) inside
      rw [notSpace, notParenthesis, if_neg (by decide), if_neg (by decide), if_pos inside]
  | operator =>
      have notSpace := IsRun.operator.apart IsRun.space (by decide) inside
      have notDigit := IsRun.operator.apart IsRun.integer (by decide) inside
      rw [notSpace, notParenthesis, notDigit, if_neg (by decide), if_neg (by decide),
        if_neg (by decide), if_pos inside]

/-- A run ends where the text goes on with no character of its class. -/
theorem run_append
    {rest behind : List Char}
    (all : ∀ d ∈ rest, inClass d = true)
    (ends : ∀ d others, behind = d :: others → inClass d = false) :
    run tag inClass c (rest ++ behind) = (⟨tag, c :: rest⟩, behind) := by
  have taken : behind.takeWhile inClass = [] ∧ behind.dropWhile inClass = behind := by
    cases behind with
    | nil =>
        exact ⟨rfl, rfl⟩
    | cons d others =>
        have outside : ¬ inClass d = true := Bool.eq_false_iff.mp (ends d others rfl)
        exact ⟨List.takeWhile_cons_of_neg outside, List.dropWhile_cons_of_neg outside⟩
  rw [run, List.takeWhile_append_of_pos all, List.dropWhile_append_of_pos all, taken.1,
    taken.2, List.append_nil]

end Munch

section Canonical

variable {lexeme : Lexeme}
variable {lexemes rest : List Lexeme}

theorem Canonical.formed
    (canonical : Canonical lexemes) :
    ∀ lexeme ∈ lexemes, lexeme.Formed := by
  induction canonical with
  | nil =>
      intro lexeme there
      cases there
  | cons formed _ _ ih =>
      intro lexeme there
      rcases List.mem_cons.mp there with rfl | there
      · exact formed
      · exact ih lexeme there

/-- A lexeme of a canonical list is the longest piece at its place. -/
theorem munch?_of_canonical
    (formed : lexeme.Formed)
    (apart : ∀ next ∈ rest.head?, ¬ lexeme.Joins next)
    (later : Canonical rest) :
    ∃ c others,
      lexeme.chars = c :: others ∧
      munch? c (others ++ charsOf rest) = some (lexeme, charsOf rest) := by
  cases formed with
  | lineFeed =>
      exact ⟨_, _, rfl, rfl⟩
  | carriageReturn =>
      exact ⟨_, _, rfl, rfl⟩
  | parenthesis parenthesis =>
      refine ⟨_, _, rfl, ?_⟩
      rcases eq_of_isParenthesis parenthesis with rfl | rfl <;> rfl
  | @run tag inClass c others isRun all =>
      have ends : ∀ d behind, charsOf rest = d :: behind → inClass d = false := by
        intro d behind same
        cases later with
        | nil =>
            cases same
        | @cons next more formed' _ _ =>
            have differ : next.tag ≠ tag := by
              intro sameTag
              exact apart next rfl ⟨sameTag.symm, inClass, isRun⟩
            obtain ⟨e, ends, begins, outside⟩ := formed'.head_apart isRun differ
            rw [charsOf_cons, begins] at same
            cases same
            exact outside
      refine ⟨c, others, rfl, ?_⟩
      rw [munch?_of_inClass isRun (all c List.mem_cons_self),
        run_append (fun d there => all d (List.mem_cons_of_mem c there)) ends]

theorem tokensFrom_of_munch?
    {c : Char}
    {rest behind : List Char}
    (fileName : String)
    (start : Position)
    (taken : munch? c rest = some (lexeme, behind)) :
    tokensFrom fileName start (c :: rest) =
      (tokensFrom fileName (advance start lexeme) behind).map
        (tokenAt fileName start lexeme :: ·) := by
  rw [tokensFrom]
  split
  · rename_i none
    rw [taken] at none
    cases none
  · rename_i lexeme' behind' taken'
    rw [taken] at taken'
    cases taken'
    rfl

/-- The lexer cuts the text of a canonical list into the lexemes of the list. -/
theorem tokensFrom_of_canonical
    (fileName : String)
    (start : Position)
    (canonical : Canonical lexemes) :
    tokensFrom fileName start (charsOf lexemes) = .ok (placed fileName start lexemes) := by
  induction canonical generalizing start with
  | nil =>
      rw [charsOf_nil, tokensFrom]
      rfl
  | cons formed apart later ih =>
      obtain ⟨c, others, begins, taken⟩ := munch?_of_canonical formed apart later
      rw [charsOf_cons, begins, List.cons_append, tokensFrom_of_munch? fileName start taken, ih]
      rfl

end Canonical

section Placed

variable {fileName : String}
variable {start : Position}
variable {lexemes : List Lexeme}

/-- The lexeme of a token: its tag and its characters. -/
def lexemeOf (token : Token) : Lexeme :=
  ⟨token.tag, token.text.toList⟩

theorem lexemeOf_tokenAt
    (fileName : String)
    (start : Position)
    (lexeme : Lexeme) :
    lexemeOf (tokenAt fileName start lexeme) = lexeme := by
  rw [lexemeOf, tokenAt, String.toList_ofList]

theorem map_lexemeOf_placed
    (fileName : String)
    (start : Position)
    (lexemes : List Lexeme) :
    (placed fileName start lexemes).map lexemeOf = lexemes := by
  induction lexemes generalizing start with
  | nil =>
      rfl
  | cons lexeme rest ih =>
      rw [placed, List.map_cons, lexemeOf_tokenAt, ih]

theorem fileName_of_mem_placed
    {token : Token}
    (there : token ∈ placed fileName start lexemes) :
    token.location.fileName = fileName := by
  induction lexemes generalizing start with
  | nil =>
      cases there
  | cons lexeme rest ih =>
      rcases List.mem_cons.mp there with rfl | there
      · rfl
      · exact ih there

/-- What a grammar sees of a canonical text: the printable lexemes, all in its file. -/
theorem printableTokens_of_canonical
    (fileName : String)
    (canonical : Canonical lexemes) :
    ∃ tokens,
      printableTokens fileName (String.ofList (charsOf lexemes)) = .ok tokens ∧
      tokens.map lexemeOf = lexemes.filter Lexeme.isPrintable ∧
      ∀ token ∈ tokens, token.location.fileName = fileName := by
  refine ⟨(placed fileName Position.origin lexemes).filter Token.isPrintable, ?_, ?_, ?_⟩
  · unfold printableTokens Lexer.tokens
    rw [String.toList_ofList, tokensFrom_of_canonical fileName Position.origin canonical]
    rfl
  · have kept := map_lexemeOf_placed fileName Position.origin lexemes
    have filtered := congrArg (List.filter Lexeme.isPrintable) kept
    rw [List.filter_map] at filtered
    exact filtered
  · intro token there
    exact fileName_of_mem_placed (List.mem_filter.mp there).1

end Placed

end Lexer
end Precedence
