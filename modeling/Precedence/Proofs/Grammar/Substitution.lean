import Precedence.Proofs.Grammar.Building

/-!
# Putting an expression in the place of an operand

An integer token derives an operand, and so does any expression in parentheses. In a list of
tokens that derives an expression, the one may therefore stand for the other: what the tokens
then derive is the expression with one leaf replaced (`LevelTable.Derives.substitute`). Which
leaf it is, is told by the number of integer tokens in front, since leaves and integer tokens
correspond (`LevelTable.Derives.countP_isInteger`).

The operators around the operand and those inside do not meet, as parentheses separate them.
-/

namespace Precedence

namespace Expr

/-- The number of leaves. -/
def leafCount : Expr → Nat
  | number _ => 1
  | binary _ left right => left.leafCount + right.leafCount

/-- Put an expression in the place of a leaf; the leaves are counted from the left. -/
def replaceLeaf : Expr → Nat → Expr → Expr
  | number value, place, operand => if place = 0 then operand else number value
  | binary operation left right, place, operand =>
      if place < left.leafCount then
        binary operation (left.replaceLeaf place operand) right
      else
        binary operation left (right.replaceLeaf (place - left.leafCount) operand)

theorem replaceLeaf_binary_left
    {operation : Operation}
    {left right operand : Expr}
    {place : Nat}
    (inside : place < left.leafCount) :
    (binary operation left right).replaceLeaf place operand =
      binary operation (left.replaceLeaf place operand) right := by
  rw [replaceLeaf, if_pos inside]

theorem replaceLeaf_binary_right
    (operation : Operation)
    (left right operand : Expr)
    (place : Nat) :
    (binary operation left right).replaceLeaf (left.leafCount + place) operand =
      binary operation left (right.replaceLeaf place operand) := by
  rw [replaceLeaf, if_neg (by omega), Nat.add_sub_cancel_left]

end Expr

namespace Token

/-- Whether a token is an integer. -/
def isInteger (token : Token) : Bool :=
  token.tag == Tag.integer

variable {token : Token}

theorem isInteger_iff :
    token.isInteger = true ↔ token.tag = Tag.integer :=
  beq_iff_eq

theorem not_isInteger_of_is
    {tag : Tag}
    {text : String}
    (other : tag ≠ Tag.integer)
    (same : token.is tag text = true) :
    token.isInteger = false := by
  rw [isInteger, (is_iff.mp same).1]
  exact beq_eq_false_iff_ne.mpr other

theorem not_isInteger_of_separates
    {symbol : String}
    (separates : token.is Tag.operator symbol = true) :
    token.isInteger = false :=
  not_isInteger_of_is (by decide) separates

theorem not_isInteger_of_opens
    (opens : token.opens = true) :
    token.isInteger = false :=
  not_isInteger_of_is (by decide) opens

theorem not_isInteger_of_closes
    (closes : token.closes = true) :
    token.isInteger = false :=
  not_isInteger_of_is (by decide) closes

end Token

section Splits

variable {token other opening closing : Token}
variable {left right front back tokens : List Token}

/-- A token that is not the middle one stands on one side of it. -/
theorem split_of_append_cons
    (same : left ++ other :: right = front ++ token :: back)
    (differ : token ≠ other) :
    (∃ between, left = front ++ token :: between ∧ back = between ++ other :: right) ∨
    ∃ between, front = left ++ other :: between ∧ right = between ++ token :: back := by
  rcases List.append_eq_append_iff.mp same with ⟨between, longer, rest⟩ | ⟨between, longer, rest⟩
  · cases between with
    | nil =>
        rw [List.nil_append, List.cons.injEq] at rest
        exact absurd rest.1.symm differ
    | cons first between =>
        rw [List.cons_append, List.cons.injEq] at rest
        obtain ⟨rfl, rest⟩ := rest
        exact .inr ⟨between, longer, rest⟩
  · cases between with
    | nil =>
        rw [List.nil_append, List.cons.injEq] at rest
        exact absurd rest.1 differ
    | cons first between =>
        rw [List.cons_append, List.cons.injEq] at rest
        obtain ⟨rfl, rest⟩ := rest
        exact .inl ⟨between, longer, rest⟩

/-- A token that is none of the outer ones stands between them. -/
theorem split_of_enclosed
    (same : opening :: (tokens ++ [closing]) = front ++ token :: back)
    (notOpening : token ≠ opening)
    (notClosing : token ≠ closing) :
    ∃ before behind,
      front = opening :: before ∧ back = behind ++ [closing] ∧
      tokens = before ++ token :: behind := by
  cases front with
  | nil =>
      rw [List.nil_append, List.cons.injEq] at same
      exact absurd same.1.symm notOpening
  | cons first before =>
      rw [List.cons_append, List.cons.injEq] at same
      obtain ⟨rfl, same⟩ := same
      rcases split_of_append_cons same notClosing with
        ⟨behind, inside, rest⟩ | ⟨between, _, rest⟩
      · exact ⟨before, behind, rfl, rest, inside⟩
      · simp at rest

end Splits

namespace LevelTable
namespace Derives

variable {table levels : LevelTable}
variable {tokens front back inner : List Token}
variable {token opening closing : Token}
variable {expr operand : Expr}

/-- Of what is derived, the integer tokens are the leaves. -/
theorem countP_isInteger
    (derives : Derives table levels tokens expr) :
    tokens.countP Token.isInteger = expr.leafCount := by
  induction derives using binaryRec with
  | integer tagged reads =>
      simp [Token.isInteger_iff.mpr tagged, Expr.leafCount]
  | group opens inner closes ih =>
      simp [Token.not_isInteger_of_opens opens, Token.not_isInteger_of_closes closes, ih]
  | operand derives ih => exact ih
  | toLeft side leftDerives separates rightDerives ihLeft ihRight =>
      simp [Token.not_isInteger_of_separates separates, ihLeft, ihRight, Expr.leafCount]
  | toRight side leftDerives separates rightDerives ihLeft ihRight =>
      simp [Token.not_isInteger_of_separates separates, ihLeft, ihRight, Expr.leafCount]

/-- Tokens up to an integer have fewer integers than the expression has leaves. -/
theorem countP_lt_leafCount
    (derives : Derives table levels (front ++ token :: back) expr)
    (isInteger : token.isInteger = true) :
    front.countP Token.isInteger < expr.leafCount := by
  rw [← derives.countP_isInteger, List.countP_append, List.countP_cons_of_pos isInteger]
  omega

/-- The leaves in front of a token on the right of an operator. -/
theorem countP_right
    {symbol : String}
    (leftDerives : Derives table levels tokens expr)
    {separator : Token}
    (separates : separator.is Tag.operator symbol = true) :
    (tokens ++ separator :: front).countP Token.isInteger =
      expr.leafCount + front.countP Token.isInteger := by
  have other := Token.not_isInteger_of_separates separates
  rw [List.countP_append, leftDerives.countP_isInteger,
    List.countP_cons_of_neg (Bool.eq_false_iff.mp other)]

/-- In the place of an integer token any expression may stand in parentheses. -/
theorem substitute
    (derives : Derives table levels (front ++ token :: back) expr)
    (isInteger : token.isInteger = true)
    (opens : opening.opens = true)
    (innerDerives : Derives table table inner operand)
    (closes : closing.closes = true) :
    Derives table levels (front ++ opening :: (inner ++ closing :: back))
      (expr.replaceLeaf (front.countP Token.isInteger) operand) := by
  have differs : ∀ {other : Token}, other.isInteger = false → token ≠ other := by
    rintro other notInteger rfl
    rw [isInteger] at notInteger
    cases notInteger
  generalize whole : front ++ token :: back = tokens at derives
  induction derives using binaryRec generalizing front back with
  | integer tagged reads =>
      obtain ⟨rfl, same⟩ | ⟨between, rfl, same⟩ := List.append_eq_cons_iff.mp whole
      · cases same
        exact .group opens innerDerives closes
      · simp at same
  | group opens' inner' closes' ih =>
      obtain ⟨before, behind, rfl, rfl, rfl⟩ := split_of_enclosed whole.symm
        (differs (Token.not_isInteger_of_opens opens'))
        (differs (Token.not_isInteger_of_closes closes'))
      have enclosed := Derives.group opens' (ih rfl) closes'
      rw [List.countP_cons_of_neg (by simp [Token.not_isInteger_of_opens opens'])]
      simpa only [List.cons_append, List.append_assoc] using enclosed
  | operand derives ih => exact (ih whole).of_operand _
  | toLeft side leftDerives separates rightDerives ihLeft ihRight =>
      rcases split_of_append_cons whole.symm
          (differs (Token.not_isInteger_of_separates separates)) with
        ⟨between, rfl, rfl⟩ | ⟨between, rfl, rfl⟩
      · rw [Expr.replaceLeaf_binary_left (leftDerives.countP_lt_leafCount isInteger)]
        simpa only [List.cons_append, List.append_assoc] using
          (ihLeft rfl).append_operand side separates rightDerives
      · rw [leftDerives.countP_right separates, Expr.replaceLeaf_binary_right]
        simpa only [List.cons_append, List.append_assoc] using
          leftDerives.append_operand side separates (ihRight rfl)
  | toRight side leftDerives separates rightDerives ihLeft ihRight =>
      rcases split_of_append_cons whole.symm
          (differs (Token.not_isInteger_of_separates separates)) with
        ⟨between, rfl, rfl⟩ | ⟨between, rfl, rfl⟩
      · rw [Expr.replaceLeaf_binary_left (leftDerives.countP_lt_leafCount isInteger)]
        simpa only [List.cons_append, List.append_assoc] using
          cons_operand side (ihLeft rfl) separates rightDerives
      · rw [leftDerives.countP_right separates, Expr.replaceLeaf_binary_right]
        simpa only [List.cons_append, List.append_assoc] using
          cons_operand side leftDerives separates (ihRight rfl)

end Derives
end LevelTable
end Precedence
