import Mathlib
import Precedence.Proofs.Arithmetic.NestingLimit
import Precedence.Proofs.Token.Placement

/-!
# The tokens of a tree

A tree that is parsed accounts for the tokens of its text. Its leaves are the integers and its
binary nodes the operators, both in the order in which they are written, and the location of
each subtree goes from its first integer to its last one (`Traces`).

The grammar gives this for what any tokens are read as. That locations come out in this way
also takes tokens that stand one behind the other, as those of the lexer do.
-/

namespace Precedence

namespace Node

/-- The nodes without operands, from left to right. -/
def leaves : Node → List Node
  | binary _ left right _ => left.leaves ++ right.leaves
  | leaf => [leaf]

/-- The binary nodes, each between those of its operands. -/
def binaries : Node → List Node
  | binary operation left right location =>
      left.binaries ++ binary operation left right location :: right.binaries
  | _ => []

/-- The node is the number that the token writes, where the token stands. -/
def IsNumberAt (node : Node) (token : Token) : Prop :=
  ∃ value, Numeral.read token.text = .ok value ∧ node = .number value token.location

/-- The node has an operation that the table gives to the operator of the token. -/
def IsOperationOf (table : LevelTable) (node : Node) (token : Token) : Prop :=
  ∃ level ∈ table, token.text = level.operator ∧
    ∃ left right location, node = .binary (some level.operation) left right location

end Node

/-- The tokens with a tag. -/
def tagged (tag : Tag) (tokens : List Token) : List Token :=
  tokens.filter fun token => token.tag == tag

/-- The location goes from the first integer of the tokens to the last one. -/
def Covers (file : String) (tokens : List Token) (location : Location) : Prop :=
  ∃ first last,
    (tagged Tag.integer tokens).head? = some first ∧
    (tagged Tag.integer tokens).getLast? = some last ∧
    location = .ofPositions file first.start last.stop

/-- The node accounts for the integers and the operators among the tokens. -/
structure Traces (table : LevelTable) (file : String) (tokens : List Token) (node : Node) :
    Prop where
  numbers : List.Forall₂ Node.IsNumberAt node.leaves (tagged Tag.integer tokens)
  operations :
    List.Forall₂ (Node.IsOperationOf table) node.binaries (tagged Tag.operator tokens)
  located : Covers file tokens node.location

section Tagged

variable {tag : Tag}
variable {token opening closing : Token}
variable {tokens front back : List Token}

@[simp] theorem tagged_nil : tagged tag [] = [] :=
  rfl

@[simp] theorem tagged_append
    (tag : Tag)
    (front back : List Token) :
    tagged tag (front ++ back) = tagged tag front ++ tagged tag back :=
  List.filter_append front back

theorem tagged_cons_of_eq
    (same : token.tag = tag) :
    tagged tag (token :: tokens) = token :: tagged tag tokens := by
  simp [tagged, same]

theorem tagged_cons_of_ne
    (other : token.tag ≠ tag) :
    tagged tag (token :: tokens) = tagged tag tokens := by
  simp [tagged, other]

theorem tagged_group
    (opens : opening.opens = true)
    (closes : closing.closes = true)
    (other : Tag.reserved ≠ tag) :
    tagged tag (opening :: (tokens ++ [closing])) = tagged tag tokens := by
  rw [tagged_cons_of_ne (Token.tag_of_opens opens ▸ other), tagged_append,
    tagged_cons_of_ne (Token.tag_of_closes closes ▸ other), tagged_nil, List.append_nil]

theorem mem_of_head?_tagged
    (first : (tagged tag tokens).head? = some token) :
    token ∈ tokens :=
  (List.mem_filter.mp (List.mem_of_mem_head? first)).1

theorem mem_of_getLast?_tagged
    (last : (tagged tag tokens).getLast? = some token) :
    token ∈ tokens :=
  (List.mem_filter.mp (List.mem_of_getLast? last)).1

end Tagged

/-- What is combined of two locations, one behind the other, has both inside. -/
theorem Covers.append
    {file : String}
    {front back : List Token}
    {left right whole : Location}
    (leftCovers : Covers file front left)
    (rightCovers : Covers file back right)
    (inOrder : InOrder file (front ++ back))
    (combined : left.combine? right = some whole) :
    Covers file (front ++ back) whole ∧ whole.Splits left right := by
  obtain ⟨first, middle, isFirst, isMiddle, rfl⟩ := leftCovers
  obtain ⟨middle', last, isMiddle', isLast, rfl⟩ := rightCovers
  have inFront := mem_of_head?_tagged isFirst
  have inFront' := mem_of_getLast?_tagged isMiddle
  have inBack := mem_of_head?_tagged isMiddle'
  have inBack' := mem_of_getLast?_tagged isLast
  have starts : first.start ≤ middle'.start :=
    (inOrder.located first (List.mem_append_left back inFront)).2.trans
      (inOrder.stop_le_start inFront inBack)
  have stops : middle.stop ≤ last.stop :=
    (inOrder.stop_le_start inFront' inBack').trans
      (inOrder.located last (List.mem_append_right front inBack')).2
  rw [Location.combine?_ofPositions file starts stops] at combined
  obtain rfl := Option.some.inj combined
  refine ⟨⟨first, last, ?_, ?_, rfl⟩, ?_⟩
  · simp [isFirst]
  · simp [isLast]
  · exact ⟨⟨rfl, le_refl _, stops⟩, ⟨rfl, starts, le_refl _⟩, inOrder.stop_le_start inFront' inBack⟩

namespace Reads

variable {table : LevelTable}
variable {file : String}
variable {tokens : List Token}
variable {node sub : Node}

theorem numbers
    (reads : Reads table tokens node) :
    List.Forall₂ Node.IsNumberAt node.leaves (tagged Tag.integer tokens) := by
  induction reads with
  | @integer token value isInteger reads =>
      rw [tagged_cons_of_eq isInteger, tagged_nil]
      exact .cons ⟨value, reads, rfl⟩ .nil
  | group opens inner closes ih =>
      rwa [tagged_group opens closes (by decide)]
  | binary among separates leftReads rightReads covers ihLeft ihRight =>
      have other := (Token.is_iff.mp separates).1.trans_ne (by decide : Tag.operator ≠ Tag.integer)
      rw [tagged_append, tagged_cons_of_ne other]
      exact List.rel_append ihLeft ihRight

theorem operations
    (reads : Reads table tokens node) :
    List.Forall₂ (Node.IsOperationOf table) node.binaries (tagged Tag.operator tokens) := by
  induction reads with
  | @integer token value isInteger reads =>
      have other := isInteger.trans_ne (by decide : Tag.integer ≠ Tag.operator)
      rw [tagged_cons_of_ne other, tagged_nil]
      exact .nil
  | group opens inner closes ih =>
      rwa [tagged_group opens closes (by decide)]
  | @binary level separator _ _ left right location among separates _ _ covers ihLeft ihRight =>
      obtain ⟨isOperator, text⟩ := Token.is_iff.mp separates
      rw [tagged_append, tagged_cons_of_eq isOperator]
      exact List.rel_append ihLeft
        (.cons ⟨level, among, text, left, right, location, rfl⟩ ihRight)

/-- Reading in order puts every binary node around its operands, which stand apart. -/
theorem located
    (reads : Reads table tokens node)
    (inOrder : InOrder file tokens) :
    Covers file tokens node.location ∧
    ∀ operation left right location,
      .binary operation left right location ∈ node.preorder →
      location.Splits left.location right.location := by
  induction reads with
  | @integer token value isInteger reads =>
      refine ⟨⟨token, token, ?_, ?_, (inOrder.located token List.mem_cons_self).1⟩, ?_⟩
      · rw [tagged_cons_of_eq isInteger]
        rfl
      · rw [tagged_cons_of_eq isInteger]
        rfl
      · simp [Node.preorder]
  | @group opening closing tokens node opens inner closes ih =>
      have inside : tokens.Sublist (opening :: (tokens ++ [closing])) :=
        (List.sublist_append_left tokens [closing]).cons opening
      rw [Covers, tagged_group opens closes (by decide)]
      exact ih (inOrder.of_sublist inside)
  | @binary level separator front back left right location among separates _ _ covers ihLeft
      ihRight =>
      -- The operator between them is no integer, so the operands alone say where the node is.
      have other := (Token.is_iff.mp separates).1.trans_ne (by decide : Tag.operator ≠ Tag.integer)
      have operands : InOrder file (front ++ back) :=
        inOrder.of_sublist ((List.sublist_cons_self separator back).append_left front)
      obtain ⟨leftCovers, inLeft⟩ := ihLeft (operands.of_sublist (List.sublist_append_left _ _))
      obtain ⟨rightCovers, inRight⟩ := ihRight (operands.of_sublist (List.sublist_append_right _ _))
      obtain ⟨whole, splits⟩ := leftCovers.append rightCovers operands covers
      rw [Covers, tagged_append] at whole
      rw [Covers, tagged_append, tagged_cons_of_ne other]
      refine ⟨whole, ?_⟩
      intro operation left' right' location' there
      rcases List.mem_cons.mp there with same | there
      · cases same
        exact splits
      rcases List.mem_append.mp there with there | there
      · exact inLeft _ _ _ _ there
      · exact inRight _ _ _ _ there

theorem traces
    (reads : Reads table tokens node)
    (inOrder : InOrder file tokens) :
    Traces table file tokens node :=
  ⟨reads.numbers, reads.operations, (reads.located inOrder).1⟩

/-- Each subtree was read from some of the tokens, one behind the other. -/
theorem of_mem_preorder
    (reads : Reads table tokens node)
    (there : sub ∈ node.preorder) :
    ∃ part, part <:+: tokens ∧ Reads table part sub := by
  induction reads with
  | integer isInteger reads =>
      obtain rfl := List.mem_singleton.mp there
      exact ⟨_, List.infix_refl _, .integer isInteger reads⟩
  | @group opening closing tokens node opens inner closes ih =>
      obtain ⟨part, isPart, reads⟩ := ih there
      exact ⟨part, isPart.trans ⟨[opening], [closing], by simp⟩, reads⟩
  | @binary level separator front back left right location among separates leftReads rightReads
      covers ihLeft ihRight =>
      rcases List.mem_cons.mp there with rfl | there
      · exact ⟨_, List.infix_refl _, .binary among separates leftReads rightReads covers⟩
      rcases List.mem_append.mp there with there | there
      · obtain ⟨part, isPart, reads⟩ := ihLeft there
        exact ⟨part, isPart.trans (List.prefix_append _ _).isInfix, reads⟩
      · obtain ⟨part, isPart, reads⟩ := ihRight there
        exact ⟨part, isPart.trans ⟨front ++ [separator], [], by simp⟩, reads⟩

end Reads

namespace Arithmetic

open Precedence.Parser

variable {table : LevelTable}
variable {file text : String}
variable {node : Node}

theorem reads_of_parseWithin
    {limit : Nat}
    {tokens : List Token}
    (parses : parseWithin limit table file tokens = .ok node) :
    Reads table tokens node := by
  rw [parseWithin_eq] at parses
  cases ran : runWith (call table limit) (.phrase (parserOf table)) (.ofTokens file tokens) with
  | error fault =>
      rw [ran] at parses
      cases parses
  | ok result =>
      cases result with
      | failure location message =>
          rw [ran] at parses
          cases parses
      | success location tree next =>
          rw [ran] at parses
          cases parses
          obtain ⟨ran, empty⟩ := phrase_inv ran
          obtain ⟨front, passes, reads⟩ :=
            reads_of_parserOf (sound_call table limit) (fun _ there => there) ran
          have all : tokens = front ++ next.rest := passes.rest_eq
          rwa [all, empty, List.append_nil]

/--
A parsed tree loses, duplicates and invents no token. Its leaves are the integers of the text
and its binary nodes the operators, in order, and so for each subtree and some tokens one
behind the other. Each binary node goes from its first to its last integer, around its
operands, the right one of which begins where the left one ends or later.
-/
theorem parseText_traces
    (table : LevelTable)
    (file text : String)
    (node : Node)
    (parses : parseText table file text = .ok node) :
    ∃ tokens,
      Lexer.printableTokens file text = .ok tokens ∧ Traces table file tokens node ∧
      (∀ sub ∈ node.preorder, ∃ part, part <:+: tokens ∧ Traces table file part sub) ∧
      ∀ operation left right location,
        .binary operation left right location ∈ node.preorder →
        location.Splits left.location right.location := by
  obtain ⟨tokens, lexes, parsed⟩ := bind_inv parses
  have printable : Lexer.printableTokens file text = .ok tokens := mapError_inv lexes
  have reads : Reads table tokens node := reads_of_parseWithin parsed
  have inOrder := Lexer.inOrder_of_printableTokens printable
  refine ⟨tokens, printable, reads.traces inOrder, ?_, (reads.located inOrder).2⟩
  intro sub there
  obtain ⟨part, isPart, partReads⟩ := reads.of_mem_preorder there
  exact ⟨part, isPart, partReads.traces (inOrder.of_sublist isPart.sublist)⟩

/-- A difference over two lines, the right operand of which is in parentheses. -/
theorem parseText_traces_minus :
    let table : LevelTable := [⟨"-", .subtraction, .left⟩]
    let one := Node.number 1 (.ofPositions "sum" ⟨1, 1⟩ ⟨1, 2⟩)
    let two := Node.number 2 (.ofPositions "sum" ⟨2, 2⟩ ⟨2, 3⟩)
    let three := Node.number 3 (.ofPositions "sum" ⟨2, 6⟩ ⟨2, 7⟩)
    let inner := Node.binary (some .subtraction) two three (.ofPositions "sum" ⟨2, 2⟩ ⟨2, 7⟩)
    let outer := Node.binary (some .subtraction) one inner (.ofPositions "sum" ⟨1, 1⟩ ⟨2, 7⟩)
    parseText table "sum" "1 -\n(2 - 3)" = .ok outer ∧
    ∃ tokens,
      Lexer.printableTokens "sum" "1 -\n(2 - 3)" = .ok tokens ∧
      Traces table "sum" tokens outer := by
  intro table one two three inner outer
  have parses : parseText table "sum" "1 -\n(2 - 3)" = .ok outer := by
    cbv
  obtain ⟨tokens, lexes, traces, _, _⟩ := parseText_traces table "sum" _ outer parses
  exact ⟨parses, tokens, lexes, traces⟩

end Arithmetic
end Precedence
