import Precedence.Proofs.Node.Equality
import Precedence.Proofs.Text.Lines

/-!
# What is printed of a tree

The lines of an expression are told by recursion: its own line, indented by two blanks for each
level of depth, then the lines of the left operand and then those of the right one
(`Expr.lines`). The walk that prints a tree, which keeps the nodes that are still to be printed
in a list, writes these lines (`linesOf_cons`), one for each node.

The lines determine the expression, whatever comes behind them (`Expr.lines_cancel`). So trees
that are printed alike are equal, and the other way round (`print_faithful`).
-/

namespace Precedence

namespace Expr

/-- The blanks in front of a line at a depth. -/
def indentation (depth : Nat) : String :=
  String.ofList (List.replicate (2 * depth) ' ')

/-- The line of an expression without the blanks in front of it. -/
def title : Expr → String
  | number value => "Number" ++ " " ++ Numeral.decimal value
  | binary operation _ _ => operation.name ++ " " ++ operation.symbol

/-- The lines of an expression at a depth, the outermost first and left before right. -/
def lines (depth : Nat) : Expr → List String
  | number value => [indentation depth ++ title (number value)]
  | binary operation left right =>
      (indentation depth ++ title (binary operation left right)) ::
        (left.lines (depth + 1) ++ right.lines (depth + 1))

variable {expr expr' : Expr}

theorem title_number_ne_binary
    (value : Int)
    (operation : Operation)
    (left right : Expr) :
    title (number value) ≠ title (binary operation left right) := by
  intro same
  have first := congrArg (fun text => text.toList.head?) same
  cases operation <;> simp [title, Operation.name] at first

theorem value_of_title
    {value value' : Int}
    (same : title (number value) = title (number value')) :
    value = value' :=
  Numeral.decimal_injective ((String.append_right_inj _).mp same)

theorem operation_of_title
    {operation operation' : Operation}
    {left left' right right' : Expr}
    (same : title (binary operation left right) = title (binary operation' left' right')) :
    operation = operation' := by
  revert same
  cases operation <;> cases operation' <;> simp [title, Operation.name, Operation.symbol]

theorem oneLine_indentation
    (depth : Nat) :
    OneLine (indentation depth) := by
  rw [OneLine, indentation, String.toList_ofList]
  intro there
  cases List.eq_of_mem_replicate there

theorem oneLine_title
    (expr : Expr) :
    OneLine expr.title := by
  cases expr with
  | number value => exact .append (by decide) (.integer value)
  | binary operation =>
      cases operation <;> exact .append (.append (by decide) (by decide)) (by decide)

theorem oneLine_of_mem_lines
    (depth : Nat) :
    ∀ line ∈ expr.lines depth, OneLine line := by
  induction expr generalizing depth with
  | number value =>
      exact List.forall_mem_singleton.mpr ((oneLine_indentation depth).append (oneLine_title _))
  | binary operation left right ihLeft ihRight =>
      refine List.forall_mem_cons.mpr
        ⟨(oneLine_indentation depth).append (oneLine_title _), fun line there => ?_⟩
      rcases List.mem_append.mp there with there | there
      · exact ihLeft (depth + 1) line there
      · exact ihRight (depth + 1) line there

/-- The lines at a depth determine the expression and what comes behind them. -/
theorem lines_cancel
    {depth : Nat}
    {rest rest' : List String}
    (same : expr.lines depth ++ rest = expr'.lines depth ++ rest') :
    expr = expr' ∧ rest = rest' := by
  induction expr generalizing expr' depth rest rest' with
  | number value =>
      cases expr' with
      | number value' =>
          obtain ⟨first, behind⟩ := List.cons.inj same
          rw [String.append_right_inj] at first
          exact ⟨congrArg number (value_of_title first), behind⟩
      | binary operation' left' right' =>
          have first := (List.cons.inj same).1
          rw [String.append_right_inj] at first
          exact absurd first (title_number_ne_binary value operation' left' right')
  | binary operation left right ihLeft ihRight =>
      cases expr' with
      | number value' =>
          have first := (List.cons.inj same).1
          rw [String.append_right_inj] at first
          exact absurd first.symm (title_number_ne_binary value' operation left right)
      | binary operation' left' right' =>
          simp only [lines, List.cons_append, List.append_assoc] at same
          obtain ⟨first, behind⟩ := List.cons.inj same
          rw [String.append_right_inj] at first
          obtain ⟨sameLeft, behindLeft⟩ := ihLeft behind
          obtain ⟨sameRight, behindRight⟩ := ihRight behindLeft
          rw [operation_of_title first, sameLeft, sameRight]
          exact ⟨rfl, behindRight⟩

theorem lines_injective
    {depth : Nat}
    (same : expr.lines depth = expr'.lines depth) :
    expr = expr' :=
  (lines_cancel (congrArg (· ++ []) same)).1

/-- The text of some lines, each with its end, determines the expression. -/
theorem join_lines_injective
    (same : String.join ((expr.lines 0).map (· ++ "\n")) =
      String.join ((expr'.lines 0).map (· ++ "\n"))) :
    expr = expr' := by
  have cut := congrArg (String.splitOn · "\n") same
  simp only [Text.splitOn_join (oneLine_of_mem_lines 0)] at cut
  exact lines_injective (List.append_cancel_right cut)

end Expr

namespace Node

variable {node : Node}
variable {expr : Expr}

/-- All numbers of the tree have few enough digits to be written. -/
def IsShort (node : Node) : Prop :=
  ∀ value location, .number value location ∈ node.preorder →
    value.natAbs < Nat.pow 10 Numeral.digitLimit

theorem isShort_number
    {value : Int}
    (few : value.natAbs < Nat.pow 10 Numeral.digitLimit)
    (location : Location) :
    IsShort (.number value location) := by
  rintro _ _ there
  cases List.mem_singleton.mp there
  exact few

theorem isShort_binary_iff
    {operation : Option Operation}
    {left right : Node}
    {location : Location} :
    IsShort (.binary operation left right location) ↔ left.IsShort ∧ right.IsShort := by
  simp only [IsShort, preorder, List.mem_cons, List.mem_append, reduceCtorEq, false_or]
  constructor
  · intro short
    exact ⟨fun value place there => short value place (.inl there),
      fun value place there => short value place (.inr there)⟩
  · rintro ⟨shortLeft, shortRight⟩ value place (there | there)
    · exact shortLeft value place there
    · exact shortRight value place there

theorem isWritable_of_short
    (short : node.IsShort) :
    node.isWritable = true := by
  induction node with
  | plain => rfl
  | expression => rfl
  | number value location =>
      have few := short value location List.mem_cons_self
      rw [isWritable, Numeral.write, if_pos few]
      rfl
  | binary operation left right location ihLeft ihRight =>
      obtain ⟨shortLeft, shortRight⟩ := isShort_binary_iff.mp short
      rw [isWritable, ihLeft shortLeft, ihRight shortRight]
      rfl

theorem print_of_short
    (short : node.IsShort) :
    node.print = .ok node.render :=
  if_pos (isWritable_of_short short)

/-- The line of a node says what the expression does. -/
theorem line_eq
    (denotes : node.expr? = some expr)
    (depth : Nat) :
    line depth node = Expr.indentation depth ++ expr.title := by
  cases node with
  | plain => cases denotes
  | expression => cases denotes
  | number value location =>
      cases denotes
      have nonempty := Numeral.decimal_ne_empty value
      simp only [line, data, Expr.title, Expr.indentation, ← String.append_assoc]
      rfl
  | binary operation left right location =>
      obtain ⟨kind, leftExpr, rightExpr, rfl, _, _, rfl⟩ := expr?_binary_iff.mp denotes
      simp only [line, Expr.title, Expr.indentation, ← String.append_assoc]
      cases kind <;> rfl

/-- The walk prints a tree by its lines, and then what else is still to be printed. -/
theorem linesOf_cons
    (denotes : node.expr? = some expr)
    (depth : Nat)
    (pending : List (Node × Nat)) :
    linesOf ((node, depth) :: pending) = expr.lines depth ++ linesOf pending := by
  induction node generalizing expr depth pending with
  | plain => cases denotes
  | expression => cases denotes
  | number value location =>
      have first := line_eq denotes depth
      cases denotes
      rw [linesOf, first]
      · rfl
      · simp
  | binary operation left right location ihLeft ihRight =>
      have first := line_eq denotes depth
      obtain ⟨kind, leftExpr, rightExpr, rfl, ofLeft, ofRight, rfl⟩ := expr?_binary_iff.mp denotes
      rw [linesOf, first, ihLeft ofLeft, ihRight ofRight, Expr.lines, List.cons_append,
        List.append_assoc]

theorem render_of_denotes
    (denotes : node.expr? = some expr) :
    node.render = String.join ((expr.lines 0).map (· ++ "\n")) := by
  rw [render, linesOf_cons denotes, linesOf, List.append_nil]

/-- There is one line for each node. -/
theorem length_lines
    (denotes : node.expr? = some expr)
    (depth : Nat) :
    (expr.lines depth).length = node.size := by
  induction node generalizing expr depth with
  | plain => cases denotes
  | expression => cases denotes
  | number => cases denotes; rfl
  | binary operation left right location ihLeft ihRight =>
      obtain ⟨kind, leftExpr, rightExpr, rfl, ofLeft, ofRight, rfl⟩ := expr?_binary_iff.mp denotes
      rw [Expr.lines, List.length_cons, List.length_append, ihLeft ofLeft, ihRight ofRight, size]
      omega

/--
A tree of numbers and operations, where no number has too many digits, is printed as the lines
of its expression, each with an end, and there is one for each of its nodes. Two such trees are
printed alike exactly when they are equal.
-/
theorem print_faithful
    {a b : Node}
    {expr expr' : Expr}
    (ofA : a.expr? = some expr)
    (ofB : b.expr? = some expr')
    (shortA : a.IsShort)
    (shortB : b.IsShort) :
    (∃ text,
      a.print = .ok text ∧
      text = String.join ((expr.lines 0).map (· ++ "\n")) ∧
      text.splitOn "\n" = expr.lines 0 ++ [""] ∧
      (expr.lines 0).length = a.size) ∧
    (a.print = b.print ↔ a.equal b = true) := by
  have textA := render_of_denotes ofA
  have textB := render_of_denotes ofB
  constructor
  · refine ⟨a.render, print_of_short shortA, textA, ?_, length_lines ofA 0⟩
    rw [textA, Text.splitOn_join (Expr.oneLine_of_mem_lines 0)]
  · rw [equal_iff ofA ofB, print_of_short shortA, print_of_short shortB, Except.ok.injEq, textA,
      textB]
    constructor
    · exact Expr.join_lines_injective
    · rintro rfl
      rfl

/-- The same difference, read from different places. -/
theorem print_faithful_difference :
    let difference (location : Location) : Node :=
      .binary (some .subtraction) (.number (-7) location) (.number 10 location) location
    let first := difference .unknown
    let second := difference (.startOf "test")
    let expr : Expr := .binary .subtraction (.number (-7)) (.number 10)
    first.expr? = some expr ∧ second.expr? = some expr ∧ first.IsShort ∧ second.IsShort ∧
    first.print = .ok "Subtraction -\n  Number -7\n  Number 10\n" ∧
    first.print = second.print := by
  intro difference first second expr
  have ofFirst : first.expr? = some expr := rfl
  have ofSecond : second.expr? = some expr := rfl
  have short (location : Location) : (difference location).IsShort :=
    isShort_binary_iff.mpr ⟨isShort_number (by decide +kernel) location,
      isShort_number (by decide +kernel) location⟩
  obtain ⟨⟨text, printed, lines, _⟩, alike⟩ :=
    print_faithful ofFirst ofSecond (short .unknown) (short (.startOf "test"))
  refine ⟨ofFirst, ofSecond, short _, short _, ?_, ?_⟩
  · rw [printed, lines]
    decide
  · exact alike.mpr ((equal_iff ofFirst ofSecond).mpr rfl)

end Node
end Precedence
