import Mathlib.Data.List.TakeWhile
import Mathlib.Tactic.IntervalCases
import Precedence.Proofs.Number.Decimal
import Precedence.Proofs.Token.Segmentation

/-!
# Which texts are cut

A text is cut into lexemes exactly if all its characters are legal where they stand; a
carriage return is so only in front of a line feed. Otherwise the first character that is
not legal is reported.

* `exists_canonical`: legal characters are those of a canonical list of lexemes.
* `tokensFrom_of_firstIllegal`: the lexer reports the first illegal character.
-/

namespace Precedence
namespace Lexer

/-- The ASCII digits. -/
def digits : List Char :=
  ['0', '1', '2', '3', '4', '5', '6', '7', '8', '9']

/-- The characters that are legal wherever they stand. -/
def legalChars : List Char :=
  ['\t', ' ', '(', ')', '+', '-', '*', '/', '^', '\n'] ++ digits

/-- Whether a character is legal in front of the given text. -/
def Legal (c : Char) (behind : List Char) : Prop :=
  c ∈ legalChars ∨ c = '\r' ∧ behind.head? = some '\n'

/-- Every character of a text is legal where it stands. -/
def AllLegal (chars : List Char) : Prop :=
  ∀ front c back, chars = front ++ c :: back → Legal c back

/-- The character behind the front is illegal, and no character of the front is. -/
structure FirstIllegal (chars front : List Char) (c : Char) (back : List Char) : Prop where
  split : chars = front ++ c :: back
  illegal : ¬ Legal c back
  first : ∀ before d after, front = before ++ d :: after → Legal d (after ++ c :: back)

section Legality

variable {c d : Char}
variable {chars front back behind rest : List Char}
variable {lexeme : Lexeme}
variable {tag tag' : Tag}
variable {inClass inClass' : Char → Bool}

theorem isDigit_iff :
    c.isDigit = true ↔ c ∈ digits := by
  constructor
  · intro digit
    obtain ⟨low, high⟩ := Numeral.toNat_of_isDigit digit
    rw [← Char.ofNat_toNat c]
    generalize c.toNat = n at low high
    interval_cases n <;> decide
  · intro there
    have all : digits.all Char.isDigit = true := by
      decide
    exact List.all_eq_true.mp all c there

theorem mem_legalChars_iff :
    c ∈ legalChars ↔
      c = '\n' ∨ isSpace c = true ∨ isParenthesis c = true ∨ c.isDigit = true ∨
        isOperator c = true := by
  simp only [legalChars, isDigit_iff, isSpace, isParenthesis, isOperator,
    List.mem_append, List.mem_cons, List.not_mem_nil, Bool.or_eq_true, decide_eq_true_eq]
  tauto

theorem IsRun.mem_legalChars
    (isRun : IsRun tag inClass)
    (inside : inClass c = true) :
    c ∈ legalChars := by
  rw [mem_legalChars_iff]
  cases isRun with
  | space => simp [inside]
  | integer => simp [inside]
  | operator => simp [inside]

theorem IsRun.unique
    (isRun : IsRun tag inClass)
    (isRun' : IsRun tag' inClass')
    (same : tag = tag') :
    inClass = inClass' := by
  cases isRun <;> cases isRun' <;> first | rfl | exact absurd same (by decide)

/-- A lexeme that begins a text and is the longest one, and the text behind it. -/
structure Munched (chars : List Char) (lexeme : Lexeme) (behind : List Char) : Prop where
  formed : lexeme.Formed
  split : chars = lexeme.chars ++ behind
  ends : ∀ {inClass}, IsRun lexeme.tag inClass → ∀ d others, behind = d :: others →
    inClass d = false

theorem munched_run
    (isRun : IsRun tag inClass)
    (inside : inClass c = true)
    (rest : List Char) :
    Munched (c :: rest) (run tag inClass c rest).1 (run tag inClass c rest).2 := by
  refine ⟨.run isRun ?_, ?_, ?_⟩
  · intro d there
    rcases List.mem_cons.mp there with rfl | there
    · exact inside
    · exact List.mem_takeWhile_imp there
  · simp [run, List.takeWhile_append_dropWhile]
  · intro inClass' isRun' d others behind
    obtain rfl := isRun.unique isRun' rfl
    simp only [run] at behind
    have stops := List.head?_dropWhile_not inClass rest
    rw [behind] at stops
    simpa using stops

/-- A single lexeme that is no run may be followed by anything. -/
theorem munched_single
    (formed : lexeme.Formed)
    (noRun : ∀ inClass, ¬ IsRun lexeme.tag inClass)
    (behind : List Char) :
    Munched (lexeme.chars ++ behind) lexeme behind :=
  ⟨formed, rfl, fun isRun => absurd isRun (noRun _)⟩

theorem not_isRun_newline
    (inClass : Char → Bool) :
    ¬ IsRun Tag.newline inClass := by
  intro isRun
  generalize same : Tag.newline = tag at isRun
  cases isRun <;> exact absurd same (by decide)

theorem not_isRun_reserved
    (inClass : Char → Bool) :
    ¬ IsRun Tag.reserved inClass :=
  fun isRun => isRun.tag_ne_reserved rfl

/-- A legal character begins a lexeme. -/
theorem exists_munched
    (legal : Legal c rest) :
    ∃ lexeme behind,
      munch? c rest = some (lexeme, behind) ∧ Munched (c :: rest) lexeme behind := by
  rcases legal with legal | ⟨rfl, follows⟩
  · rcases mem_legalChars_iff.mp legal with rfl | space | parenthesis | digit | operator
    · exact ⟨_, _, rfl, munched_single .lineFeed not_isRun_newline rest⟩
    · exact ⟨_, _, munch?_of_inClass .space space rest, munched_run .space space rest⟩
    · refine ⟨⟨Tag.reserved, [c]⟩, rest, ?_,
        munched_single (.parenthesis parenthesis) not_isRun_reserved rest⟩
      rcases eq_of_isParenthesis parenthesis with rfl | rfl <;> rfl
    · exact ⟨_, _, munch?_of_inClass .integer digit rest, munched_run .integer digit rest⟩
    · exact ⟨_, _, munch?_of_inClass .operator operator rest,
        munched_run .operator operator rest⟩
  · obtain ⟨behind, rfl⟩ : ∃ behind, rest = '\n' :: behind := List.head?_eq_some_iff.mp follows
    exact ⟨_, _, rfl, munched_single .carriageReturn not_isRun_newline behind⟩

/-- An illegal character begins none. -/
theorem munch?_of_illegal
    (illegal : ¬ Legal c rest) :
    munch? c rest = none := by
  simp only [Legal, mem_legalChars_iff, not_or, not_and] at illegal
  obtain ⟨⟨notLineFeed, notSpace, notParenthesis, notDigit, notOperator⟩, notReturn⟩ := illegal
  unfold munch?
  rw [if_neg notLineFeed]
  split
  · rename_i isReturn
    split
    · exact absurd rfl (notReturn isReturn)
    · rfl
  · rfl

theorem Lexeme.Formed.chars_ne_nil
    (formed : lexeme.Formed) :
    lexeme.chars ≠ [] := by
  cases formed <;> simp

/-- A lexeme with the tag of a run consists of characters of the class. -/
theorem Lexeme.Formed.all_inClass
    (formed : lexeme.Formed)
    (isRun : IsRun tag inClass)
    (tagged : lexeme.tag = tag) :
    ∀ d ∈ lexeme.chars, inClass d = true := by
  subst tagged
  cases formed with
  | lineFeed => exact absurd isRun (not_isRun_newline inClass)
  | carriageReturn => exact absurd isRun (not_isRun_newline inClass)
  | parenthesis _ => exact absurd isRun (not_isRun_reserved inClass)
  | run isRun' all =>
      obtain rfl := isRun'.unique isRun rfl
      exact all

/-- The characters of a lexeme are legal, whatever is behind it. -/
theorem Lexeme.Formed.legal
    (formed : lexeme.Formed)
    (split : lexeme.chars = front ++ c :: back)
    (behind : List Char) :
    Legal c (back ++ behind) := by
  have there : c ∈ lexeme.chars := by
    rw [split]
    simp
  cases formed with
  | lineFeed =>
      rw [List.mem_singleton.mp there]
      exact .inl (by decide)
  | parenthesis parenthesis =>
      rw [List.mem_singleton.mp there]
      exact .inl (mem_legalChars_iff.mpr (by simp [parenthesis]))
  | run isRun all =>
      exact .inl (isRun.mem_legalChars (all c there))
  | carriageReturn =>
      cases front with
      | nil =>
          cases split
          exact .inr ⟨rfl, rfl⟩
      | cons _ front =>
          have there : c ∈ ['\n'] := by
            rw [(List.cons.inj split).2]
            simp
          rw [List.mem_singleton.mp there]
          exact .inl (by decide)

theorem AllLegal.of_append
    (legal : AllLegal (front ++ back)) :
    AllLegal back := by
  intro before c after split
  exact legal (front ++ before) c after (by rw [split, List.append_assoc])

theorem AllLegal.cons
    (here : Legal c rest)
    (legal : AllLegal rest) :
    AllLegal (c :: rest) := by
  intro front d back split
  cases front with
  | nil =>
      cases split
      exact here
  | cons e front =>
      cases split
      exact legal front d back rfl

theorem exists_firstIllegal
    (illegal : ¬ AllLegal chars) :
    ∃ front c back, FirstIllegal chars front c back := by
  induction chars with
  | nil =>
      exact absurd (fun front c back split => by simp at split) illegal
  | cons c rest ih =>
      by_cases here : Legal c rest
      · obtain ⟨front, d, back, rfl, notLegal, first⟩ :=
          ih fun legal => illegal (legal.cons here)
        refine ⟨c :: front, d, back, rfl, notLegal, ?_⟩
        intro before e after split
        cases before with
        | nil =>
            cases split
            exact here
        | cons _ before =>
            cases split
            exact first before e after rfl
      · exact ⟨[], c, rest, rfl, here, fun before d after split => by simp at split⟩

/-- A lexeme may stand in front of the lexemes of the text that it leaves. -/
theorem Munched.canonical_cons
    {lexemes : List Lexeme}
    (munched : Munched chars lexeme behind)
    (canonical : Canonical lexemes)
    (spells : charsOf lexemes = behind) :
    Canonical (lexeme :: lexemes) := by
  refine .cons munched.formed ?_ canonical
  rintro next there ⟨same, inClass, isRun⟩
  cases canonical with
  | nil => cases there
  | @cons other more formed _ _ =>
      cases there
      cases formed with
      | lineFeed => exact not_isRun_newline _ (same ▸ isRun)
      | carriageReturn => exact not_isRun_newline _ (same ▸ isRun)
      | parenthesis _ => exact not_isRun_reserved _ (same ▸ isRun)
      | @run tag inClass' c others isRun' all =>
          obtain rfl := isRun'.unique isRun same.symm
          have outside := munched.ends isRun c (others ++ charsOf more) (by rw [← spells]; rfl)
          rw [all c List.mem_cons_self] at outside
          cases outside

/-- Legal characters are those of a canonical list of lexemes. -/
theorem exists_canonical
    (legal : AllLegal chars) :
    ∃ lexemes, Canonical lexemes ∧ charsOf lexemes = chars := by
  induction length : chars.length using Nat.strongRecOn generalizing chars with
  | ind count ih =>
      cases chars with
      | nil =>
          exact ⟨[], .nil, rfl⟩
      | cons c rest =>
          obtain ⟨lexeme, behind, _, munched⟩ := exists_munched (legal [] c rest rfl)
          have positive := List.length_pos_iff.mpr munched.formed.chars_ne_nil
          have shorter := congrArg List.length munched.split
          rw [List.length_append] at shorter
          rw [munched.split] at legal
          obtain ⟨lexemes, canonical, spells⟩ :=
            ih behind.length (by omega) legal.of_append rfl
          refine ⟨lexeme :: lexemes, munched.canonical_cons canonical spells, ?_⟩
          rw [charsOf_cons, spells, munched.split]

/-- The text that a lexeme leaves has the same first illegal character. -/
theorem FirstIllegal.of_munched
    (illegal : FirstIllegal chars front c back)
    (nonempty : front ≠ [])
    (munched : Munched chars lexeme behind) :
    ∃ others, front = lexeme.chars ++ others ∧ FirstIllegal behind others c back := by
  obtain ⟨split, notLegal, first⟩ := illegal
  rw [munched.split] at split
  rcases List.append_eq_append_iff.mp split with ⟨others, rfl, rest⟩ | ⟨between, covers, rest⟩
  · refine ⟨others, rfl, rest, notLegal, ?_⟩
    intro before d after inside
    exact first (lexeme.chars ++ before) d after (by rw [inside, List.append_assoc])
  · cases between with
    | nil =>
        refine ⟨[], ?_, rest.symm, notLegal, by simp⟩
        rw [covers]
        simp
    | cons d between =>
        cases rest
        exact absurd (munched.formed.legal covers behind) notLegal

/-- The lexer reports the first illegal character, at the place behind all lexemes before it. -/
theorem tokensFrom_of_firstIllegal
    (illegal : FirstIllegal chars front c back)
    (fileName : String)
    (start : Position) :
    ∃ lexemes : List Lexeme,
      (∀ lexeme ∈ lexemes, lexeme.Formed) ∧ charsOf lexemes = front ∧
      tokensFrom fileName start chars =
        .error ⟨locate fileName (lexemes.foldl advance start) 1, c⟩ := by
  induction length : front.length using Nat.strongRecOn generalizing chars front start with
  | ind count ih =>
      cases front with
      | nil =>
          obtain rfl : chars = c :: back := illegal.split
          refine ⟨[], by simp, rfl, ?_⟩
          rw [tokensFrom]
          split
          · rfl
          · rename_i taken
            rw [munch?_of_illegal illegal.illegal] at taken
            cases taken
      | cons d front =>
          obtain rfl : chars = d :: (front ++ c :: back) := illegal.split
          obtain ⟨lexeme, behind, taken, munched⟩ := exists_munched (illegal.first [] d front rfl)
          obtain ⟨others, covers, later⟩ := illegal.of_munched (by simp) munched
          have positive := List.length_pos_iff.mpr munched.formed.chars_ne_nil
          have shorter := congrArg List.length covers
          rw [List.length_append] at shorter
          obtain ⟨lexemes, formed, spells, fails⟩ :=
            ih others.length (by omega) later (advance start lexeme) rfl
          refine ⟨lexeme :: lexemes, List.forall_mem_cons.mpr ⟨munched.formed, formed⟩, ?_, ?_⟩
          · rw [charsOf_cons, spells, covers]
          · rw [tokensFrom_of_munch? fileName start taken, fails]
            rfl

end Legality

end Lexer
end Precedence
