import Precedence.Proofs.Grammar.Nesting
import Precedence.Proofs.Token.Segmentation

/-!
# Parentheses of a text and of its tokens

The parentheses of a text are tokens of their own, and no other token has any. So the tokens
that a grammar sees nest as deep as the text does.
-/

namespace Precedence
namespace Lexer

/-- Whether a lexeme has the given tag and text. -/
def Lexeme.is (tag : Tag) (text : String) (lexeme : Lexeme) : Bool :=
  lexeme.tag == tag && String.ofList lexeme.chars == text

theorem is_comp_lexemeOf
    (tag : Tag)
    (text : String) :
    Lexeme.is tag text ∘ lexemeOf = Token.is tag text := by
  funext token
  simp only [Function.comp_apply, Lexeme.is, lexemeOf, String.ofList_toList, Token.is]

variable {lexeme : Lexeme}
variable {lexemes : List Lexeme}
variable {c : Char}

theorem IsRun.not_inClass_parenthesis
    {tag : Tag}
    {inClass : Char → Bool}
    (isRun : IsRun tag inClass)
    (parenthesis : isParenthesis c = true) :
    inClass c = false := by
  rcases eq_of_isParenthesis parenthesis with rfl | rfl <;> cases isRun <;> rfl

/-- A parenthesis stands in the lexeme of just this parenthesis, and nowhere else. -/
theorem Lexeme.Formed.countP_parenthesis
    (formed : lexeme.Formed)
    (parenthesis : isParenthesis c = true) :
    lexeme.chars.countP (· == c) =
      [lexeme].countP (Lexeme.is Tag.reserved (String.ofList [c])) := by
  cases formed with
  | lineFeed =>
      rcases eq_of_isParenthesis parenthesis with rfl | rfl <;> decide
  | carriageReturn =>
      rcases eq_of_isParenthesis parenthesis with rfl | rfl <;> decide
  | parenthesis other =>
      rcases eq_of_isParenthesis other with rfl | rfl <;>
        rcases eq_of_isParenthesis parenthesis with rfl | rfl <;> decide
  | @run tag inClass d rest isRun all =>
      have outside := isRun.not_inClass_parenthesis parenthesis
      have differ : (tag == Tag.reserved) = false :=
        beq_eq_false_iff_ne.mpr isRun.tag_ne_reserved
      have none : (d :: rest).countP (· == c) = 0 := by
        apply List.countP_eq_zero.mpr
        intro e there same
        have inside := all e there
        rw [beq_iff_eq.mp same, outside] at inside
        cases inside
      rw [none, List.countP_singleton, Lexeme.is, differ, Bool.false_and]
      rfl

/-- The tokens that a grammar sees of well-formed lexemes nest as the text does. -/
theorem nestsWithin_of_charsOf
    {limit : Nat}
    {tokens : List Token}
    (formed : ∀ lexeme ∈ lexemes, lexeme.Formed)
    (spelled : tokens.map lexemeOf = lexemes.filter Lexeme.isPrintable)
    (nests : NestsWithin (· == '(') (· == ')') limit (charsOf lexemes)) :
    NestsWithin Token.opens Token.closes limit tokens := by
  have printable : ∀ {text : String} {lexeme : Lexeme},
      lexeme.is Tag.reserved text = true → lexeme.isPrintable = true := by
    intro text lexeme same
    simp only [Lexeme.is, Bool.and_eq_true, beq_iff_eq] at same
    rw [Lexeme.isPrintable, same.1]
    decide
  have all : NestsWithin (Lexeme.is Tag.reserved "(") (Lexeme.is Tag.reserved ")") limit
      lexemes :=
    nests.of_flatMap (fun lexeme there => (formed lexeme there).countP_parenthesis rfl)
      (fun lexeme there => (formed lexeme there).countP_parenthesis rfl)
  have seen := all.filter (fun _ => printable) (fun _ => printable)
  rw [← spelled] at seen
  have mapped := seen.of_map
  rwa [is_comp_lexemeOf, is_comp_lexemeOf] at mapped

end Lexer
end Precedence
