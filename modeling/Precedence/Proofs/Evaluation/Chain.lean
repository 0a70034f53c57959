import Precedence.Proofs.Arithmetic.RoundTrip
import Precedence.Proofs.Evaluation.Meaning

/-!
# Chains of additions and subtractions

In the default table `-` binds tighter than `+`, so a chain of both is not read from left to
right: it is a sum of runs of subtractions. Its value is the conventional one nevertheless
(`evaluateText_chain`). Whatever a chain ends in, the run at its end may be exchanged for
another run, and the value changes by the difference (`EndsInRun`); a `-` makes this run
longer, and a `+` begins another one.
-/

namespace Precedence

/-- The signs of a chain. -/
inductive Sign where
  | plus
  | minus

namespace Sign

/-- The character of a sign. -/
def char : Sign → Char
  | plus => '+'
  | minus => '-'

/-- What a sign does with the value so far and a number. -/
def apply : Sign → Int → Int → Int
  | plus, total, value => total + value
  | minus, total, value => total - value

end Sign

/-- A natural number with so few digits that it can be read. -/
structure ShortNumber where
  value : Nat
  short : (Nat.toDigits 10 value).length ≤ Numeral.digitLimit

/-- A sign, with any number of spaces on its sides, and the number behind it. -/
structure ChainLink where
  spacesBefore : Nat
  sign : Sign
  spacesBehind : Nat
  number : ShortNumber

/-- Numbers with a sign between any two. -/
structure Chain where
  first : ShortNumber
  links : List ChainLink

open Lexer

namespace ShortNumber

/-- The lexeme of a number. -/
def lexeme (number : ShortNumber) : Lexeme :=
  ⟨Tag.integer, Nat.toDigits 10 number.value⟩

end ShortNumber

namespace ChainLink

/-- The text of a link. -/
def text (link : ChainLink) : String :=
  String.ofList (List.replicate link.spacesBefore ' ') ++ link.sign.char.toString ++
    String.ofList (List.replicate link.spacesBehind ' ') ++ Numeral.decimal link.number.value

/-- The lexemes of a link that a grammar sees. -/
def seen (link : ChainLink) : List Lexeme :=
  [⟨Tag.operator, [link.sign.char]⟩, link.number.lexeme]

end ChainLink

namespace Chain

/-- The text of a chain. -/
def text (chain : Chain) : String :=
  Numeral.decimal chain.first.value ++ String.join (chain.links.map ChainLink.text)

/-- The value of a chain, from left to right. -/
def value (chain : Chain) : Int :=
  chain.links.foldl (fun total link => link.sign.apply total link.number.value)
    chain.first.value

end Chain

namespace Lexer

variable {rest : List Lexeme}

/-- The lexeme of some spaces, of which there may be none. -/
def spaces (count : Nat) : List Lexeme :=
  if count = 0 then [] else [⟨Tag.space, List.replicate count ' '⟩]

theorem charsOf_spaces
    (count : Nat) :
    charsOf (spaces count) = List.replicate count ' ' := by
  unfold spaces
  split
  · rename_i none
    rw [none]
    rfl
  · rw [charsOf_cons, charsOf_nil, List.append_nil]

theorem not_isPrintable_of_mem_spaces
    {count : Nat} :
    ∀ lexeme ∈ spaces count, lexeme.isPrintable = false := by
  intro lexeme there
  unfold spaces at there
  split at there
  · cases there
  · cases List.mem_singleton.mp there
    rfl

/-- Spaces may stand in front of everything but spaces. -/
theorem canonical_spaces
    (count : Nat)
    (differ : ∀ next ∈ rest.head?, next.tag ≠ Tag.space)
    (later : Canonical rest) :
    Canonical (spaces count ++ rest) := by
  unfold spaces
  split
  · exact later
  · rename_i positive
    have blanks : ∀ c ∈ List.replicate count ' ', isSpace c = true := by
      intro c there
      rw [List.eq_of_mem_replicate there]
      rfl
    have nonempty : List.replicate count ' ' ≠ [] := by
      simpa using positive
    exact LevelTree.canonical_run .space nonempty blanks differ later

/-- Spaces in front of what has another tag do not begin with this tag. -/
theorem head_spaces
    {count : Nat}
    {tag : Tag}
    (notSpace : tag ≠ Tag.space)
    (differ : ∀ next ∈ rest.head?, next.tag ≠ tag) :
    ∀ next ∈ (spaces count ++ rest).head?, next.tag ≠ tag := by
  unfold spaces
  split
  · exact differ
  · rintro next ⟨⟩
    exact notSpace.symm

end Lexer

namespace ShortNumber

variable (number : ShortNumber)
variable {rest : List Lexeme}

theorem isPrintable_lexeme : number.lexeme.isPrintable = true :=
  rfl

/-- A number may stand in front of everything but another number. -/
theorem canonical_lexeme
    (differ : ∀ next ∈ rest.head?, next.tag ≠ Tag.integer)
    (later : Canonical rest) :
    Canonical (number.lexeme :: rest) :=
  LevelTree.canonical_run .integer Nat.toDigits_ne_nil Numeral.isDigit_of_mem_toDigits differ
    later

/-- The token of a number derives it behind the last level. -/
theorem derives
    {table : LevelTable}
    {token : Token}
    (same : lexemeOf token = number.lexeme) :
    LevelTable.Derives table [] [token] (.number number.value) := by
  obtain ⟨tagged, text⟩ := Token.is_iff.mp (LevelTree.is_of_lexemeOf same)
  refine .integer tagged ?_
  rw [text, ← Numeral.decimal_natCast]
  exact Numeral.read_decimal number.short

end ShortNumber

namespace ChainLink

variable (link : ChainLink)
variable {rest : List Lexeme}

/-- All lexemes of a link. -/
def lexemes : List Lexeme :=
  spaces link.spacesBefore ++ ⟨Tag.operator, [link.sign.char]⟩ ::
    (spaces link.spacesBehind ++ [link.number.lexeme])

theorem toList_text :
    link.text.toList = charsOf link.lexemes := by
  simp [text, lexemes, charsOf_spaces, ShortNumber.lexeme, Numeral.decimal_natCast]

theorem filter_lexemes :
    link.lexemes.filter Lexeme.isPrintable = link.seen := by
  have none : ∀ count, (spaces count).filter Lexeme.isPrintable = [] := by
    intro count
    apply List.filter_eq_nil_iff.mpr
    intro lexeme there
    simp [not_isPrintable_of_mem_spaces lexeme there]
  have sign : (⟨Tag.operator, [link.sign.char]⟩ : Lexeme).isPrintable = true := rfl
  rw [lexemes, List.filter_append, none, List.filter_cons_of_pos sign, List.filter_append, none,
    List.filter_cons_of_pos link.number.isPrintable_lexeme]
  rfl

/-- A link does not begin with a number. -/
theorem head_lexemes
    (rest : List Lexeme) :
    ∀ next ∈ (link.lexemes ++ rest).head?, next.tag ≠ Tag.integer := by
  rw [lexemes, List.append_assoc]
  refine head_spaces (by decide) ?_
  rintro next ⟨⟩
  exact (by decide : Tag.operator ≠ Tag.integer)

/-- A link may stand in front of everything but a number. -/
theorem canonical_lexemes
    (differ : ∀ next ∈ rest.head?, next.tag ≠ Tag.integer)
    (later : Canonical rest) :
    Canonical (link.lexemes ++ rest) := by
  have number : Canonical (spaces link.spacesBehind ++ link.number.lexeme :: rest) := by
    refine canonical_spaces _ ?_ (link.number.canonical_lexeme differ later)
    rintro next ⟨⟩
    exact (by decide : Tag.integer ≠ Tag.space)
  have isSign : ∀ c ∈ [link.sign.char], isOperator c = true :=
    List.forall_mem_singleton.mpr (by cases link.sign <;> rfl)
  have signed : Canonical (⟨Tag.operator, [link.sign.char]⟩ ::
      (spaces link.spacesBehind ++ link.number.lexeme :: rest)) := by
    refine LevelTree.canonical_run .operator (by simp) isSign (head_spaces (by decide) ?_) number
    rintro next ⟨⟩
    exact (by decide : Tag.integer ≠ Tag.operator)
  rw [lexemes, List.append_assoc, List.cons_append, List.append_assoc, List.singleton_append]
  refine canonical_spaces _ ?_ signed
  rintro next ⟨⟩
  exact (by decide : Tag.operator ≠ Tag.space)

end ChainLink

namespace Chain

variable (chain : Chain)

/-- The lexemes of a chain spell its text. -/
theorem toList_text :
    chain.text.toList =
      charsOf (chain.first.lexeme :: chain.links.flatMap ChainLink.lexemes) := by
  have links : (String.join (chain.links.map ChainLink.text)).toList =
      charsOf (chain.links.flatMap ChainLink.lexemes) := by
    induction chain.links with
    | nil => rfl
    | cons link links ih =>
        simp [ih, ChainLink.toList_text]
  rw [text, String.toList_append, links, Numeral.decimal_natCast, String.toList_ofList]
  rfl

/-- The links of a chain may stand behind a number. -/
theorem canonical_links
    (links : List ChainLink) :
    Canonical (links.flatMap ChainLink.lexemes) ∧
    ∀ next ∈ (links.flatMap ChainLink.lexemes).head?, next.tag ≠ Tag.integer := by
  induction links with
  | nil => exact ⟨.nil, by simp⟩
  | cons link links ih =>
      rw [List.flatMap_cons]
      exact ⟨link.canonical_lexemes ih.2 ih.1, link.head_lexemes _⟩

/-- The lexemes of a chain, as the lexer finds them. -/
theorem canonical :
    Canonical (chain.first.lexeme :: chain.links.flatMap ChainLink.lexemes) :=
  chain.first.canonical_lexeme (canonical_links chain.links).2 (canonical_links chain.links).1

/-- What a grammar sees of a chain: no spaces. -/
theorem filter_lexemes :
    (chain.first.lexeme :: chain.links.flatMap ChainLink.lexemes).filter Lexeme.isPrintable =
      chain.first.lexeme :: chain.links.flatMap ChainLink.seen := by
  have links : ∀ links : List ChainLink,
      (links.flatMap ChainLink.lexemes).filter Lexeme.isPrintable =
        links.flatMap ChainLink.seen := by
    intro links
    rw [List.filter_flatMap]
    exact congrArg (links.flatMap ·) (funext ChainLink.filter_lexemes)
  rw [List.filter_cons_of_pos chain.first.isPrintable_lexeme, links]

/-- There are no parentheses in a chain. -/
theorem tag_ne_reserved :
    ∀ lexeme ∈ chain.first.lexeme :: chain.links.flatMap ChainLink.seen,
      lexeme.tag ≠ Tag.reserved := by
  intro lexeme there
  have tag : lexeme.tag = Tag.integer ∨ lexeme.tag = Tag.operator := by
    rcases List.mem_cons.mp there with rfl | there
    · exact .inl rfl
    obtain ⟨link, _, there⟩ := List.mem_flatMap.mp there
    rcases List.mem_cons.mp there with rfl | there
    · exact .inr rfl
    · cases List.mem_singleton.mp there
      exact .inl rfl
  rcases tag with tag | tag <;> rw [tag] <;> decide

end Chain

namespace LevelTable

variable {table levels : LevelTable}
variable {level : OperatorLevel}
variable {tokens left right : List Token}
variable {separator : Token}
variable {value leftValue rightValue : Int}

/-- The tokens derive an expression that has the value. -/
def Yields (table levels : LevelTable) (tokens : List Token) (value : Int) : Prop :=
  ∃ expr, Derives table levels tokens expr ∧ expr.meaning? = some value

/-- The value of tokens at a level is their value at all looser ones. -/
theorem Yields.of_drop
    {count other : Nat}
    (yields : Yields table (table.drop count) tokens value)
    (fewer : other ≤ count) :
    Yields table (table.drop other) tokens value := by
  obtain ⟨expr, derives, means⟩ := yields
  exact ⟨expr, derives.of_drop fewer, means⟩

/-- One more operand of a level that groups to the left gives the result of its operation. -/
theorem Yields.append_operand
    (toLeft : level.associativity = .left)
    (leftYields : Yields table (level :: levels) left leftValue)
    (separates : separator.is Tag.operator level.operator = true)
    (rightYields : Yields table levels right rightValue)
    (result : level.operation.exact? leftValue rightValue = some value) :
    Yields table (level :: levels) (left ++ separator :: right) value := by
  obtain ⟨leftExpr, leftDerives, leftMeans⟩ := leftYields
  obtain ⟨rightExpr, rightDerives, rightMeans⟩ := rightYields
  refine ⟨_, leftDerives.append_operand toLeft separates rightDerives, ?_⟩
  rw [Expr.meaning?, leftMeans, rightMeans]
  exact result

/--
Tokens of the default table that end in a run of `-`. With another run in its place their value
is the one before it and that of the other run.
-/
inductive EndsInRun : List Token → Int → Prop
  | intro
      {front back : List Token}
      {earlier run : Int}
      (isRun : Yields default (default.drop 1) back run)
      (exchange : ∀ other value, Yields default (default.drop 1) other value →
        Yields default default (front ++ other) (earlier + value)) :
      EndsInRun (front ++ back) (earlier + run)

namespace EndsInRun

variable {total : Int}
variable {sign token : Token}
variable {number : ShortNumber}

/-- A number yields its value at every level. -/
theorem yields_number
    {count : Nat}
    (same : lexemeOf token = number.lexeme)
    (within : count ≤ default.length) :
    Yields default (default.drop count) [token] number.value := by
  have atom : Yields default (default.drop default.length) [token] number.value :=
    ⟨_, number.derives same, rfl⟩
  exact atom.of_drop within

theorem yields
    (ends : EndsInRun tokens total) :
    Yields default default tokens total := by
  cases ends with
  | intro isRun exchange => exact exchange _ _ isRun

/-- A number alone is a run with nothing before it. -/
theorem of_number
    (same : lexemeOf token = number.lexeme) :
    EndsInRun [token] number.value := by
  have alone := @intro [] [token] 0 number.value (yields_number same (by decide)) ?_
  · rwa [List.nil_append, Int.zero_add] at alone
  · intro other value isRun
    have whole : Yields default (default.drop 0) other value := isRun.of_drop (by decide)
    rwa [List.nil_append, Int.zero_add]

/-- A number behind `-` makes the run longer. -/
theorem minus
    (ends : EndsInRun tokens total)
    (subtracts : sign.is Tag.operator "-" = true)
    (same : lexemeOf token = number.lexeme) :
    EndsInRun (tokens ++ [sign, token]) (total - number.value) := by
  cases ends with
  | intro isRun exchange =>
      have operand : Yields default (default.drop 2) [token] number.value :=
        yields_number same (by decide)
      rw [List.append_assoc, Int.add_sub_assoc]
      exact intro (isRun.append_operand rfl subtracts operand rfl) exchange

/-- A number behind `+` begins another run, with everything else before it. -/
theorem plus
    (ends : EndsInRun tokens total)
    (adds : sign.is Tag.operator "+" = true)
    (same : lexemeOf token = number.lexeme) :
    EndsInRun (tokens ++ [sign, token]) (total + number.value) := by
  have another := @intro (tokens ++ [sign]) [token] total number.value
    (yields_number same (by decide)) ?_
  · rwa [List.append_assoc, List.singleton_append] at another
  · intro other value isRun
    rw [List.append_assoc, List.singleton_append]
    exact ends.yields.append_operand rfl adds isRun rfl

/-- All links of a chain, from left to right. -/
theorem links
    {links : List ChainLink}
    {more : List Token}
    (ends : EndsInRun tokens total)
    (spelled : more.map lexemeOf = links.flatMap ChainLink.seen) :
    EndsInRun (tokens ++ more)
      (links.foldl (fun total link => link.sign.apply total link.number.value) total) := by
  induction links generalizing tokens total more with
  | nil =>
      rw [List.map_eq_nil_iff.mp spelled, List.append_nil]
      exact ends
  | cons link links ih =>
      obtain ⟨sign, behind, rfl, isSign, spelled⟩ := List.map_eq_cons_iff.mp spelled
      obtain ⟨token, rest, rfl, isNumber, spelled⟩ := List.map_eq_cons_iff.mp spelled
      have further : EndsInRun (tokens ++ [sign, token])
          (link.sign.apply total link.number.value) := by
        have separates := LevelTree.is_of_lexemeOf isSign
        cases side : link.sign with
        | plus =>
            rw [side] at separates
            exact ends.plus separates isNumber
        | minus =>
            rw [side] at separates
            exact ends.minus separates isNumber
      have whole := ih further spelled
      rwa [List.append_assoc] at whole

end EndsInRun

end LevelTable

namespace Arithmetic

open LevelTable

/-- The tokens of a chain can be read, and they yield its value. -/
theorem exists_tokens_of_chain
    (chain : Chain)
    (fileName : String) :
    ∃ tokens,
      Arithmetic.tokens fileName chain.text = .ok tokens ∧
      Readable nestingLimit tokens ∧
      Yields LevelTable.default LevelTable.default tokens chain.value := by
  obtain ⟨tokens, lexes, spelled, inFile⟩ :=
    printableTokens_of_canonical fileName chain.canonical
  rw [← chain.toList_text, String.ofList_toList] at lexes
  rw [chain.filter_lexemes] at spelled
  obtain ⟨token, rest, rfl, isFirst, isRest⟩ := List.map_eq_cons_iff.mp spelled
  have yields := ((EndsInRun.of_number isFirst).links isRest).yields
  refine ⟨token :: rest, ?_, ⟨?_, ?_, ?_⟩, yields⟩
  · rw [Arithmetic.tokens, lexes]
    rfl
  · intro s isToken t isToken'
    rw [inFile s isToken, inFile t isToken']
  · obtain ⟨expr, derives, _⟩ := yields
    exact derives.numerals
  · refine .of_none fun token' there => Token.not_opens_of_tag ?_
    have seen := List.mem_map_of_mem (f := lexemeOf) there
    rw [spelled] at seen
    exact chain.tag_ne_reserved _ seen

/-- The value of a chain is the conventional one, from left to right. -/
theorem evaluateText_chain
    (chain : Chain)
    (fileName : String) :
    evaluateText LevelTable.default fileName chain.text = .ok chain.value := by
  obtain ⟨tokens, lexes, readable, expr, derives, means⟩ :=
    exists_tokens_of_chain chain fileName
  obtain ⟨node, parses, denotes⟩ :=
    (parseWithin_denotes_iff (by decide) fileName readable expr).mpr derives
  have parsed : parseText LevelTable.default fileName chain.text = .ok node := by
    rw [parseText, lexes]
    exact parses
  rw [evaluateText, parsed]
  change evaluate node = _
  rw [evaluate, Evaluation.evaluate_of_meaning denotes means]
  rfl

/-- The chain `8 - 3+  2`, of which the parser reads the sum of `8 - 3` and `2`. -/
example :
    let chain : Chain :=
      ⟨⟨8, by decide⟩, [⟨1, .minus, 1, ⟨3, by decide⟩⟩, ⟨0, .plus, 2, ⟨2, by decide⟩⟩]⟩
    chain.text = "8 - 3+  2" ∧ chain.value = 7 :=
  ⟨rfl, rfl⟩

end Arithmetic
end Precedence
