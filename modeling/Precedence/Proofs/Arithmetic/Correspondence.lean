import Precedence.Proofs.Arithmetic.NestingLimit
import Precedence.Proofs.Evaluation.Meaning
import Precedence.Proofs.Node.Correspondence
import Precedence.Proofs.Parser.Correspondence

/-!
# Expressions at corresponding places

The grammar of a table reads corresponding tokens as corresponding trees: the same numbers and
operations, with locations that belong together (`parseWithin_corresponds`). Such trees have the
same values and are printed alike, and what is wrong with them is reported in the same words at
locations that belong together (`evaluate_corresponds`, `Node.Corresponds.render_eq`).
-/

namespace Precedence

variable {spots : Location → Location → Prop}

namespace Evaluation

/-- Two errors of an evaluation at locations that are related. -/
inductive Error.Corresponds (spots : Location → Location → Prop) : Error → Error → Prop
  | divisionByZero
      {here there : Location}
      (located : spots here there) :
      Corresponds spots (.divisionByZero here) (.divisionByZero there)
  | meaningless :
      Corresponds spots .meaningless .meaningless

/-- Corresponding trees have the same value, or their evaluation ends at the same node. -/
theorem evaluate_corresponds
    {node node' : Node}
    (same : node.Corresponds spots node') :
    Parallel (Error.Corresponds spots) Eq node.evaluate node'.evaluate := by
  induction same with
  | plain located =>
      rw [Node.evaluate_eq_fold, Node.evaluate_eq_fold]
      exact .error .meaningless
  | expression located =>
      rw [Node.evaluate_eq_fold, Node.evaluate_eq_fold]
      exact .error .meaningless
  | number value located =>
      rw [Node.evaluate_number, Node.evaluate_number]
      exact .ok rfl
  | binary operation leftSame rightSame located ihLeft ihRight =>
      rw [Node.evaluate_binary, Node.evaluate_binary]
      refine ihLeft.bind fun {leftValue _} sameLeft => ihRight.bind fun {rightValue _} sameRight => ?_
      cases sameLeft
      cases sameRight
      cases operation with
      | none => exact .error .meaningless
      | some operation =>
          dsimp only [step]
          cases result? operation leftValue rightValue with
          | none => exact .error (.divisionByZero located)
          | some value => exact .ok rfl

end Evaluation

/-- Two problems that are reported in the same words, at locations that are related. -/
inductive Problem.Corresponds (spots : Location → Location → Prop) : Problem → Problem → Prop
  | reported
      {here there : Location}
      (kind : Diagnostic.Kind)
      (located : spots here there)
      (message : String) :
      Corresponds spots (.reported ⟨kind, some here, message⟩) (.reported ⟨kind, some there, message⟩)
  | breakdown
      (cause : Breakdown) :
      Corresponds spots (.breakdown cause) (.breakdown cause)

namespace Arithmetic

open Precedence.Parser

/-- A value of a tree is computed or not, wherever the tree was read. -/
theorem evaluate_corresponds
    {tree tree' : Node}
    (same : tree.Corresponds spots tree') :
    Parallel (Problem.Corresponds spots) Eq (evaluate tree) (evaluate tree') := by
  refine (Evaluation.evaluate_corresponds same).mapError fun related => ?_
  cases related with
  | divisionByZero located => exact .reported _ located _
  | meaningless => exact .breakdown _

/-- A relation of trees that the grammar keeps at corresponding places. -/
structure Kept (c : Correspondence) (trees : Node → Node → Prop) : Prop where
  number : ∀ value {here there}, c.sites here there →
    trees (.number value here) (.number value there)
  combine : ∀ operation {left left' right right'}, trees left left' → trees right right' →
    Parallel Eq trees (combine operation left right) (combine operation left' right')

/-- Trees that only locations tell apart stay so, as covers of related locations are related. -/
theorem kept_corresponds
    (c : Correspondence) :
    Kept c (Node.Corresponds c.spots) where
  number value _ _ site := .number value (c.single site)
  combine operation _ _ _ _ left right :=
    (Correspondence.cover left.located right.located).bind fun located =>
      .ok (.binary (some operation) left right located)

section Grammar

variable {c : Correspondence}
variable {trees : Node → Node → Prop}
variable {calls calls' : Unit → Reader → Action (Result Node)}
variable {p p' : ExprParser Node}

theorem reduceRight_kept
    (kept : Kept c trees)
    (operation : Operation)
    {operands operands' : List Node}
    (same : operands.Forall₂ trees operands') :
    Parallel Eq trees (Level.reduceRight (combine operation) operands)
      (Level.reduceRight (combine operation) operands') := by
  induction same with
  | nil => exact .error rfl
  | cons first rest ih =>
      cases rest with
      | nil => exact .ok first
      | cons second rest => exact ih.bind fun right => kept.combine operation first right

theorem atom_simulates
    (kept : Kept c trees)
    (forwards : c.Simulates calls calls' trees (.forward ()) (.forward ())) :
    c.Simulates calls calls' trees atom atom := by
  have integers : c.Simulates calls calls' trees integer integer := by
    refine .token Tag.integer fun text {_ _} site => ?_
    cases Numeral.read text with
    | ok value => exact .ok (kept.number value site)
    | error error => exact .error rfl
  have keyword (text : String) :
      c.Simulates calls calls' Eq (.reserved Tag.reserved text) (.reserved Tag.reserved text) :=
    .reserved Tag.reserved text
  exact integers.orElse
    ((((keyword "(").keepRight forwards).keepLeft (keyword ")")).orElse (.fail Level.bottomMessage))

theorem levelParser_simulates
    (kept : Kept c trees)
    (level : OperatorLevel)
    (same : c.Simulates calls calls' trees p p') :
    c.Simulates calls calls' trees (levelParser level p) (levelParser level p') := by
  have separator : c.Simulates calls calls' Eq (operator level.operator) (operator level.operator) :=
    .reserved Tag.operator level.operator
  have round := separator.keepRight same
  unfold levelParser
  cases level.associativity with
  | left => exact same.leftRec round fun left right _ => kept.combine level.operation left right
  | right =>
      have operands : c.Simulates calls calls' (List.Forall₂ trees)
          (p.rep1Sep (operator level.operator)) (p'.rep1Sep (operator level.operator)) :=
        (same.seq round.rep).process fun both _ => .ok (.cons both.1 both.2)
      exact operands.process fun all _ => reduceRight_kept kept level.operation all

/-- Levels put in front of parsers that correspond. -/
theorem append_simulates
    (kept : Kept c trees)
    {behind behind' : LevelTable}
    (front : LevelTable)
    (same : c.Simulates calls calls' trees (parserOf behind) (parserOf behind')) :
    c.Simulates calls calls' trees (parserOf (front ++ behind)) (parserOf (front ++ behind')) := by
  induction front with
  | nil => exact same
  | cons level front ih => exact levelParser_simulates kept level ih

/-- Levels whose calls correspond do so themselves. -/
theorem parserOf_simulates
    (kept : Kept c trees)
    (levels : LevelTable)
    (forwards : c.Simulates calls calls' trees (.forward ()) (.forward ())) :
    c.Simulates calls calls' trees (parserOf levels) (parserOf levels) := by
  have innermost : c.Simulates calls calls' trees (parserOf []) (parserOf []) :=
    atom_simulates kept forwards
  have all := append_simulates kept levels innermost
  rwa [List.append_nil] at all

end Grammar

/-- Calls correspond, by induction on the number that may be open at once. -/
theorem call_simulates
    (c : Correspondence)
    (table : LevelTable)
    (limit : Nat) :
    c.Simulates (call table limit) (call table limit) (Node.Corresponds c.spots)
      (.forward ()) (.forward ()) := by
  induction limit with
  | zero => exact fun _ _ _ => .error rfl
  | succ limit ih => exact parserOf_simulates (kept_corresponds c) table ih

/-- Corresponding tokens are read as corresponding trees, or have corresponding problems. -/
theorem parseWithin_corresponds
    {c : Correspondence}
    {file file' : String}
    {tokens tokens' : List Token}
    (limit : Nat)
    (table : LevelTable)
    (placed : c.places (.ofTokens file tokens) (.ofTokens file' tokens')) :
    Parallel (Problem.Corresponds c.sites) (Node.Corresponds c.spots)
      (parseWithin limit table file tokens) (parseWithin limit table file' tokens') := by
  have whole := parserOf_simulates (kept_corresponds c) table (call_simulates c table limit)
  have ends := whole.phrase _ _ placed
  rw [parseWithin_eq, parseWithin_eq]
  generalize runWith (call table limit) _ (.ofTokens file tokens) = x,
    runWith (call table limit) _ (.ofTokens file' tokens') = x' at ends
  cases ends with
  | ok related =>
      cases related with
      | failure site message => exact .error (.reported _ site message)
      | success spots tree stop => exact .ok tree
  | @error fault _ same =>
      cases same
      refine .error ?_
      cases fault with
      | nestedTooDeeply => exact .reported _ (c.location placed) _
      | _ => exact .breakdown _

end Arithmetic
end Precedence
