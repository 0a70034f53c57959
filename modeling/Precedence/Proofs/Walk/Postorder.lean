import Precedence.Node.Visitor
import Precedence.Proofs.Recording

/-!
# Walking is recursion

A walk keeps tasks and values in two lists. It computes what recursion on the tree computes
(`Rose.walk_eq_fold`), with the same effects in the same order, in any lawful monad. What
carries the proof is that a walk which enters a tree comes to the tasks behind it with one
more value, that of the tree, and with all other values untouched.

`Rose.Dispatches` says which actions recursion takes: those of the nodes in postorder, each on
the values of its own children, until one of them raises an error.
-/

namespace Precedence
namespace Rose

variable {α β γ ε : Type}

section Machine

variable {m : Type → Type} [Monad m]

/-- Go on with a walk behind a value: with the next task, or with the result. -/
def resume (action : α → List β → m β) (tasks : List (Task α)) (value : β) (values : List β) :
    m β :=
  match tasks with
  | [] => pure ((value :: values).getLast (List.cons_ne_nil _ _))
  | task :: tasks => proceed action task tasks (value :: values)

/-- A task whose children were left, or that has none, acts on the latest values. -/
theorem proceed_of_ready
    (action : α → List β → m β)
    {label : α}
    {children : List (Rose α)}
    {expanded : Bool}
    (ready : expanded = true ∨ children = [])
    (tasks : List (Task α))
    (values : List β) :
    proceed action ⟨node label children, expanded⟩ tasks values =
      action label (values.take children.length).reverse >>= fun value =>
        resume action tasks value (values.drop children.length) := by
  have notEntered : ∀ child others, children = child :: others → expanded ≠ false := by
    rintro child others rfl rfl
    simp at ready
  rw [proceed]
  · rfl
  · intro child others unexpanded same
    exact notEntered child others same unexpanded

variable [LawfulMonad m]

/-- As many values are computed as there are trees. -/
theorem folds_bind_congr
    (action : α → List β → m β)
    (trees : List (Rose α))
    {go go' : List β → m γ}
    (same : ∀ values : List β, values.length = trees.length → go values = go' values) :
    folds action trees >>= go = folds action trees >>= go' := by
  induction trees generalizing go go' with
  | nil =>
      simp only [folds, pure_bind]
      exact same [] rfl
  | cons tree trees ih =>
      simp only [folds, bind_assoc, pure_bind]
      refine bind_congr fun value => ih fun values length => ?_
      exact same (value :: values) (congrArg Nat.succ length)

mutual

/-- A walk that enters a tree comes to the tasks behind it with the value of the tree. -/
theorem proceed_enter
    (action : α → List β → m β)
    (tree : Rose α)
    (tasks : List (Task α))
    (values : List β) :
    proceed action (.enter tree) tasks values =
      fold action tree >>= fun value => resume action tasks value values := by
  match tree with
  | node label [] =>
      rw [Task.enter, proceed_of_ready action (.inr rfl), fold, folds, pure_bind]
      rfl
  | node label (child :: others) =>
      have entered := proceed_enter action child
        (enterAll others (⟨node label (child :: others), true⟩ :: tasks)) values
      rw [Task.enter, proceed, entered, fold, folds, bind_assoc, bind_assoc]
      refine bind_congr fun value => ?_
      rw [resume_enterAll, bind_assoc]
      simp only [pure_bind]
      refine folds_bind_congr action others fun results length => ?_
      -- The latest values, as many as there are children, are those of the children.
      have split : (results.reverse ++ [value]).length = (child :: others).length := by
        simp [length]
      rw [proceed_of_ready action (.inl rfl), List.append_cons results.reverse value values,
        List.take_left' split, List.drop_left' split]
      simp

/-- Trees that are entered one after the other leave their values in front. -/
theorem resume_enterAll
    (action : α → List β → m β)
    (trees : List (Rose α))
    (task : Task α)
    (tasks : List (Task α))
    (value : β)
    (values : List β) :
    resume action (enterAll trees (task :: tasks)) value values =
      folds action trees >>= fun results =>
        proceed action task tasks (results.reverse ++ value :: values) := by
  match trees with
  | [] =>
      rw [folds, pure_bind]
      rfl
  | tree :: trees =>
      have entered := proceed_enter action tree (enterAll trees (task :: tasks)) (value :: values)
      change proceed action (.enter tree) (enterAll trees (task :: tasks)) (value :: values) = _
      rw [entered, folds, bind_assoc]
      refine bind_congr fun first => ?_
      rw [resume_enterAll, bind_assoc]
      simp

end

/-- A walk computes what recursion computes. -/
theorem walk_eq_fold
    (action : α → List β → m β)
    (tree : Rose α) :
    tree.walk action = tree.fold action := by
  rw [walk, proceed_enter]
  exact bind_pure _

end Machine

section Order

mutual

/-- All subtrees, the children of each node before it and from left to right. -/
def postorder : Rose α → List (Rose α)
  | node label children => postorders children ++ [node label children]

/-- All subtrees of several trees, one tree after the other. -/
def postorders : List (Rose α) → List (Rose α)
  | [] => []
  | tree :: trees => postorder tree ++ postorders trees

end

/--
Going through the nodes of some trees, the action is called with each node and the values of
its children, and with no node behind the first one for which it raises an error.
-/
inductive Dispatches (action : α → List β → Except ε β) :
    List (Rose α) → List (α × List β) → Option ε → Prop
  | done : Dispatches action [] [] none
  | returned
      {label : α}
      {children order : List (Rose α)}
      {values : List β}
      {value : β}
      {calls : List (α × List β)}
      {raised : Option ε}
      (operands : folds action children = .ok values)
      (acted : action label values = .ok value)
      (later : Dispatches action order calls raised) :
      Dispatches action (node label children :: order) ((label, values) :: calls) raised
  | raised
      {label : α}
      {children order : List (Rose α)}
      {values : List β}
      {error : ε}
      (operands : folds action children = .ok values)
      (acted : action label values = .error error) :
      Dispatches action (node label children :: order) [(label, values)] (some error)

namespace Dispatches

variable {action : α → List β → Except ε β}
variable {front back : List (Rose α)}
variable {calls calls' : List (α × List β)}
variable {raised : Option ε}

/-- If all nodes in front were dispatched, it goes on with those behind. -/
theorem append
    (first : Dispatches action front calls none)
    (second : Dispatches action back calls' raised) :
    Dispatches action (front ++ back) (calls ++ calls') raised := by
  generalize ends : (none : Option ε) = ending at first
  induction first with
  | done => exact second
  | returned operands acted later ih => exact .returned operands acted (ih ends)
  | raised operands acted => cases ends

/-- An error in front keeps the nodes behind from being dispatched. -/
theorem append_of_error
    {error : ε}
    (first : Dispatches action front calls (some error))
    (back : List (Rose α)) :
    Dispatches action (front ++ back) calls (some error) := by
  generalize ends : some error = ending at first ⊢
  induction first with
  | done => cases ends
  | returned operands acted later ih => exact .returned operands acted (ih ends)
  | raised operands acted => exact .raised operands acted

end Dispatches

/-- The error that a computation raises, if it does. -/
def errorOf? : Except ε γ → Option ε
  | .ok _ => none
  | .error error => some error

/-- An action whose calls are recorded. -/
def recording (action : α → List β → Except ε β) (label : α) (values : List β) :
    Recording ε (α × List β) β := do
  modify (· ++ [(label, values)])
  ExceptT.mk (pure (action label values))

variable {action : α → List β → Except ε β}

/-- The computation ends as recursion does, and records the dispatches in the order. -/
def Records (action : α → List β → Except ε β) (order : List (Rose α))
    (x : Recording ε (α × List β) γ) (outcome : Except ε γ) : Prop :=
  ∀ record, ∃ calls,
    x.ending record = (outcome, record ++ calls) ∧
    Dispatches action order calls (errorOf? outcome)

namespace Records

variable {δ : Type}
variable {order back : List (Rose α)}
variable {x : Recording ε (α × List β) γ}
variable {f : γ → Recording ε (α × List β) δ}

theorem of_pure
    (action : α → List β → Except ε β)
    (value : γ) :
    Records action [] (pure value) (.ok value) :=
  fun record => ⟨[], congrArg (Prod.mk _) (List.append_nil record).symm, .done⟩

theorem of_recording
    {label : α}
    {children : List (Rose α)}
    {values : List β}
    (operands : folds action children = .ok values) :
    Records action [node label children] (recording action label values)
      (action label values) := by
  intro record
  refine ⟨[(label, values)], rfl, ?_⟩
  cases acted : action label values with
  | error error => exact .raised operands acted
  | ok value => exact .returned operands acted .done

theorem bind
    {outcome : Except ε γ}
    {go : γ → Except ε δ}
    (first : Records action order x outcome)
    (second : ∀ value, outcome = .ok value → Records action back (f value) (go value)) :
    Records action (order ++ back) (x >>= f) (outcome >>= go) := by
  intro record
  obtain ⟨calls, ends, dispatched⟩ := first record
  cases outcome with
  | error error =>
      refine ⟨calls, ?_, dispatched.append_of_error back⟩
      rw [Recording.ending_bind, ends]
      rfl
  | ok value =>
      obtain ⟨later, endsLater, dispatchedLater⟩ := second value rfl (record ++ calls)
      refine ⟨calls ++ later, ?_, dispatched.append dispatchedLater⟩
      rw [Recording.ending_bind, ends]
      change (f value).ending (record ++ calls) = _
      rw [endsLater, List.append_assoc]
      rfl

end Records

mutual

/-- Recursion over a tree dispatches its nodes in postorder. -/
theorem records_fold
    (action : α → List β → Except ε β)
    (tree : Rose α) :
    Records action tree.postorder (tree.fold (recording action)) (tree.fold action) := by
  match tree with
  | node label children =>
      rw [fold, fold, postorder]
      exact (records_folds action children).bind fun values operands => .of_recording operands

/-- Recursion over several trees dispatches their nodes in postorder, too. -/
theorem records_folds
    (action : α → List β → Except ε β)
    (trees : List (Rose α)) :
    Records action (postorders trees) (folds (recording action) trees) (folds action trees) := by
  match trees with
  | [] =>
      rw [folds, folds, postorders]
      exact .of_pure action []
  | tree :: trees =>
      rw [folds, folds, postorders]
      refine (records_fold action tree).bind fun value _ => ?_
      have collected := (records_folds action trees).bind fun values _ =>
        .of_pure action (value :: values)
      rwa [List.append_nil] at collected

end

end Order
end Rose

/--
Visiting a tree of any arity and depth is recursion on it: with the effects of any action, and
so for the dispatch of any visitor. The action is called for the nodes in postorder, with the
values of their own children, until it raises an error, which is the result.
-/
theorem visit_is_recursion
    {α β ε : Type} :
    (∀ {m : Type → Type} [Monad m] [LawfulMonad m] (action : α → List β → m β) (tree : Rose α),
      tree.walk action = tree.fold action) ∧
    (∀ {m : Type → Type} [Monad m] [LawfulMonad m] (visitor : Visitor m β) (node : Node),
      visitor.visit node = node.toRose.fold visitor.dispatch) ∧
    ∀ (action : α → List β → Except ε β) (tree : Rose α), ∃ calls,
      (tree.walk (Rose.recording action)).ending [] = (tree.fold action, calls) ∧
      Rose.Dispatches action tree.postorder calls (Rose.errorOf? (tree.fold action)) := by
  refine ⟨Rose.walk_eq_fold, ?_, ?_⟩
  · intro m _ _ visitor node
    exact Rose.walk_eq_fold visitor.dispatch node.toRose
  · intro action tree
    rw [Rose.walk_eq_fold]
    exact Rose.records_fold action tree []

/-- The node behind the one with the error is not dispatched, and neither is the root. -/
example :
    let tree : Rose Nat := .node 0 [.node 1 [], .node 2 [.node 3 []], .node 4 []]
    let action := fun label (values : List Nat) =>
      if label = 2 then Except.error values else .ok (label + 10)
    (tree.walk (Rose.recording action)).ending [] = (.error [13], [(1, []), (3, []), (2, [13])]) := by
  cbv

end Precedence
