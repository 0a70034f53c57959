import Precedence.Proofs.Arithmetic.Provenance
import Precedence.Proofs.Grammar.Substitution
import Precedence.Proofs.Node.Equality

/-!
# Expressions in the place of operands

What is parsed may be put in parentheses in the place of any integer of what is parsed: the
tree of the whole is the one tree with a leaf replaced by the other one
(`parse_replaces_leaf`). Precedence does not matter, neither of the operators around the
integer nor of those in the parentheses.

A tree that is given back has a derivation, no matter how deep its parentheses nest
(`derives_of_parseWithin`), so this is a matter of derivations.
-/

namespace Precedence

open LevelTable

namespace Node

/-- Put a tree in the place of a leaf; the leaves are counted from the left. -/
def replaceLeaf : Node → Nat → Node → Node
  | binary operation left right location, place, operand =>
      if place < left.leaves.length then
        binary operation (left.replaceLeaf place operand) right location
      else
        binary operation left (right.replaceLeaf (place - left.leaves.length) operand) location
  | leaf, place, operand => if place = 0 then operand else leaf

variable {node operand : Node}
variable {expr operandExpr : Expr}

theorem length_leaves
    (ofNode : node.expr? = some expr) :
    node.leaves.length = expr.leafCount := by
  induction node generalizing expr with
  | plain location => cases ofNode
  | expression location => cases ofNode
  | number value location =>
      cases ofNode
      rfl
  | binary operation left right location ihLeft ihRight =>
      obtain ⟨kind, leftExpr, rightExpr, rfl, ofLeft, ofRight, rfl⟩ := expr?_binary_iff.mp ofNode
      rw [leaves, List.length_append, ihLeft ofLeft, ihRight ofRight, Expr.leafCount]

/-- With a leaf replaced a tree denotes its expression with this leaf replaced. -/
theorem expr?_replaceLeaf
    (ofNode : node.expr? = some expr)
    (ofOperand : operand.expr? = some operandExpr)
    (place : Nat) :
    (node.replaceLeaf place operand).expr? = some (expr.replaceLeaf place operandExpr) := by
  induction node generalizing expr place with
  | plain location => cases ofNode
  | expression location => cases ofNode
  | number value location =>
      cases ofNode
      by_cases first : place = 0
      · rw [replaceLeaf, Expr.replaceLeaf, if_pos first, if_pos first]
        · exact ofOperand
        · simp
      · rw [replaceLeaf, Expr.replaceLeaf, if_neg first, if_neg first]
        · rfl
        · simp
  | binary operation left right location ihLeft ihRight =>
      obtain ⟨kind, leftExpr, rightExpr, rfl, ofLeft, ofRight, rfl⟩ := expr?_binary_iff.mp ofNode
      rw [replaceLeaf, Expr.replaceLeaf, length_leaves ofLeft]
      by_cases inside : place < leftExpr.leafCount
      · rw [if_pos inside, if_pos inside]
        exact expr?_binary_iff.mpr ⟨kind, _, _, rfl, ihLeft ofLeft place, ofRight, rfl⟩
      · rw [if_neg inside, if_neg inside]
        exact expr?_binary_iff.mpr ⟨kind, _, _, rfl, ofLeft, ihRight ofRight _, rfl⟩

end Node

namespace Reads

variable {table : LevelTable}
variable {tokens front back : List Token}
variable {token : Token}
variable {node : Node}

/-- An integer token is one of the leaves, and those of the integers in front come before. -/
theorem exists_leaf
    (reads : Reads table (front ++ token :: back) node)
    (isInteger : token.tag = Tag.integer) :
    ∃ leaf,
      node.leaves[front.countP Token.isInteger]? = some leaf ∧ leaf.IsNumberAt token := by
  have count : front.countP Token.isInteger = (tagged Tag.integer front).length :=
    List.countP_eq_length_filter
  have numbers := reads.numbers
  rw [tagged_append, tagged_cons_of_eq isInteger] at numbers
  obtain ⟨leaf, _, isNumber, _, behind⟩ :=
    List.forall₂_cons_right_iff.mp (List.forall₂_drop_append _ _ _ numbers)
  refine ⟨leaf, ?_, isNumber⟩
  rw [count, ← List.head?_drop, behind, List.head?_cons]

/-- All integer tokens of what is read are numerals. -/
theorem numerals
    (reads : Reads table tokens node) :
    ∀ token ∈ tokens, token.tag = Tag.integer →
      ∃ value, Numeral.read token.text = .ok value := by
  intro token there isInteger
  obtain ⟨front, back, rfl⟩ := List.append_of_mem there
  obtain ⟨_, _, value, read, _⟩ := reads.exists_leaf isInteger
  exact ⟨value, read⟩

end Reads

namespace Arithmetic

open Precedence.Parser

variable {table : LevelTable}
variable {fileName : String}
variable {tokens : List Token}
variable {node : Node}
variable {limit : Nat}

/-- A parse that gives back a tree does so with any limit that does not end it. -/
theorem parseWithin_of_ok
    (parses : parseWithin limit table fileName tokens = .ok node)
    (limit' : Nat) :
    parseWithin limit' table fileName tokens = .ok node ∨
    parseWithin limit' table fileName tokens =
      .error (syntaxProblem (firstLocation fileName tokens)
        "expression is nested too deeply") := by
  have agrees := fun limit => callForward_agrees (unlimited_ampleCall table) limit
  have outcome := fun limit => @runWith_error_or_eq _ _ _ _ _ _ (.phrase (parserOf table))
    (.ofTokens fileName tokens) _ (agrees limit)
  rw [parseWithin_eq] at parses ⊢
  have unlimited : treeOf (.ofTokens fileName tokens)
      (runWith (ampleCall table) (.phrase (parserOf table)) (.ofTokens fileName tokens)) =
        .ok node := by
    rcases outcome limit with stopped | same
    · rw [call, stopped] at parses
      cases parses
    · rwa [call, same] at parses
  rcases outcome limit' with stopped | same
  · right
    rw [call, stopped, ← location_ofTokens]
    rfl
  · left
    rwa [call, same]

/-- Whatever is given back denotes an expression that all tokens derive. -/
theorem derives_of_parseWithin
    (distinct : Distinct table)
    (oneFile : InOneFile tokens)
    (parses : parseWithin limit table fileName tokens = .ok node) :
    ∃ expr, node.expr? = some expr ∧ Derives table table tokens expr := by
  have readable : Readable tokens.length tokens := by
    refine ⟨oneFile, (reads_of_parseWithin parses).numerals, ?_⟩
    intro front isFront
    have counted := @List.countP_le_length _ Token.opens front
    have shorter := isFront.length_le
    omega
  have again := parseWithin_of_ok parses tokens.length
  rcases parseWithin_cases distinct fileName readable with
    ⟨node', expr, parses', denotes, derives⟩ | ⟨_, _, _, _, _, _, fails⟩ | ⟨_, fails⟩
  · rcases again with same | stopped
    · cases same.symm.trans parses'
      exact ⟨expr, denotes, derives⟩
    · cases stopped.symm.trans parses'
  · rcases again with same | stopped
    · cases same.symm.trans fails
    · exact absurd (syntaxProblem_inj (stopped.symm.trans fails)).2 (by decide)
  · rcases again with same | stopped
    · cases same.symm.trans fails
    · exact absurd (syntaxProblem_inj (stopped.symm.trans fails)).2 (by decide)

/--
In the place of an integer of what is parsed anything that is parsed may stand in parentheses.
The tree of the whole is the tree around with the leaf of that integer replaced.
-/
theorem parse_replaces_leaf
    (table : LevelTable)
    (distinct : Distinct table)
    (fileName : String)
    (front back inner : List Token)
    (integer opening closing : Token)
    (tree operand : Node)
    (isInteger : integer.tag = Tag.integer)
    (opens : opening.opens = true)
    (closes : closing.closes = true)
    (oneFile : InOneFile
      (integer :: (front ++ opening :: (inner ++ closing :: back))))
    (nests : NestsWithin Token.opens Token.closes nestingLimit
      (front ++ opening :: (inner ++ closing :: back)))
    (parses : parse table fileName (front ++ integer :: back) = .ok tree)
    (parsesInner : parse table fileName inner = .ok operand) :
    ∃ leaf whole,
      tree.leaves[front.countP Token.isInteger]? = some leaf ∧ leaf.IsNumberAt integer ∧
      parse table fileName (front ++ opening :: (inner ++ closing :: back)) = .ok whole ∧
      whole.equal (tree.replaceLeaf (front.countP Token.isInteger) operand) = true := by
  have isPart : ∀ part, part ⊆ integer :: (front ++ opening :: (inner ++ closing :: back)) →
      InOneFile part :=
    fun _ inside s isToken t isToken' => oneFile s (inside isToken) t (inside isToken')
  have aroundInside : front ++ integer :: back ⊆
      integer :: (front ++ opening :: (inner ++ closing :: back)) := by
    intro token
    simp only [List.mem_append, List.mem_cons]
    tauto
  have innerInside : inner ⊆ integer :: (front ++ opening :: (inner ++ closing :: back)) := by
    intro token
    simp only [List.mem_append, List.mem_cons]
    tauto
  obtain ⟨leaf, there, isNumber⟩ := (reads_of_parseWithin parses).exists_leaf isInteger
  obtain ⟨expr, denotes, derives⟩ :=
    derives_of_parseWithin distinct (isPart _ aroundInside) parses
  obtain ⟨operandExpr, operandDenotes, operandDerives⟩ :=
    derives_of_parseWithin distinct (isPart _ innerInside) parsesInner
  have whole := derives.substitute (Token.isInteger_iff.mpr isInteger) opens operandDerives closes
  have readable : Readable nestingLimit (front ++ opening :: (inner ++ closing :: back)) :=
    ⟨isPart _ (List.subset_cons_self _ _), whole.numerals, nests⟩
  obtain ⟨node, parsesWhole, nodeDenotes⟩ :=
    (parseWithin_denotes_iff distinct fileName readable _).mpr whole
  refine ⟨leaf, node, there, isNumber, parsesWhole, ?_⟩
  exact (Node.equal_iff nodeDenotes (Node.expr?_replaceLeaf denotes operandDenotes _)).mpr rfl

/-- In `1 - 2` the sum `3 + 4` takes the place of the `2`, although `+` binds looser. -/
theorem parse_replaces_leaf_minus :
    let table : LevelTable := [⟨"+", .addition, .left⟩, ⟨"-", .subtraction, .left⟩]
    let place := Location.startOf "sum"
    let number := fun text => Token.mk text Tag.integer place
    let minus : Token := ⟨"-", Tag.operator, place⟩
    let plus : Token := ⟨"+", Tag.operator, place⟩
    let opening : Token := ⟨"(", Tag.reserved, place⟩
    let closing : Token := ⟨")", Tag.reserved, place⟩
    let sum := Node.binary (some .addition) (.number 3 place) (.number 4 place) place
    let difference := Node.binary (some .subtraction) (.number 1 place) sum place
    ∃ whole,
      parse table "sum"
          [number "1", minus, opening, number "3", plus, number "4", closing] = .ok whole ∧
      whole.equal difference = true := by
  intro table place number minus plus opening closing sum difference
  have parses : parse table "sum" ([number "1", minus] ++ number "2" :: []) =
      .ok (.binary (some .subtraction) (.number 1 place) (.number 2 place) place) := by
    cbv
  have parsesInner : parse table "sum" [number "3", plus, number "4"] = .ok sum := by
    cbv
  obtain ⟨_, whole, _, _, parsesWhole, same⟩ :=
    parse_replaces_leaf table (by decide) "sum" [number "1", minus] []
      [number "3", plus, number "4"] (number "2") opening closing _ sum rfl rfl rfl
      (by decide) (by decide) parses parsesInner
  exact ⟨whole, parsesWhole, same⟩

end Arithmetic
end Precedence
