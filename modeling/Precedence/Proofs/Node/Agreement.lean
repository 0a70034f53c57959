import Precedence.Node.Equality
import Precedence.Proofs.Node.Correspondence
import Precedence.Proofs.Node.Expression

/-!
# What equality of trees is

Trees are compared with a list of pairs that are still to be looked at. What this finds out is
told by recursion on the trees (`Agrees`): the list of pairs agrees exactly when each of them
does (`allAgree_iff`). Agreement is reflexive and transitive, and it goes both ways exactly
between trees that only their locations tell apart.

Equal trees are of the same class and agree (`equal_iff_agrees`). So equality is reflexive and
transitive, too. It is symmetric where no tree of a general class is an operand, and goes one
way only where such an operand meets one of a more special class (`equal_preorder`,
`equal_plain_operand`).
-/

namespace Precedence
namespace Node

namespace Class

variable {first second third : Class}

theorem includes_refl
    (kind : Class) :
    kind.includes kind = true := by
  cases kind <;> simp [includes]

theorem includes_trans
    (outer : first.includes second = true)
    (inner : second.includes third = true) :
    first.includes third = true := by
  cases first <;> cases second <;> cases third <;> simp_all [includes]

theorem includes_antisymm
    (includes : first.includes second = true)
    (included : second.includes first = true) :
    first = second := by
  cases first <;> cases second <;> simp_all [Class.includes]

end Class

/--
The class of each node includes that of the node in the same place, and numbers have the same
value. Nothing is asked of what is below a node of a general class without operands.
-/
inductive Agrees : Node → Node → Prop
  | plain
      (location : Location)
      (other : Node) :
      Agrees (.plain location) other
  | expression
      {other : Node}
      (location : Location)
      (includes : Class.expression.includes other.classOf = true) :
      Agrees (.expression location) other
  | number
      (value : Int)
      (here there : Location) :
      Agrees (.number value here) (.number value there)
  | binary
      {operation operation' : Option Operation}
      {left left' right right' : Node}
      (here there : Location)
      (includes : (classOfOperation operation).includes (classOfOperation operation') = true)
      (ofLeft : Agrees left left')
      (ofRight : Agrees right right') :
      Agrees (.binary operation left right here) (.binary operation' left' right' there)

/-- The trees have the same shape, the same classes and the same numbers. -/
abbrev Alike : Node → Node → Prop :=
  Corresponds fun _ _ => True

/-- The tree is made of numbers and operations only. -/
def IsConcrete (node : Node) : Prop :=
  node.expr?.isSome = true

variable {a b c : Node}

theorem isConcrete_binary_iff
    {operation : Option Operation}
    {left right : Node}
    {location : Location} :
    IsConcrete (.binary operation left right location) ↔
      (∃ kind, operation = some kind) ∧ left.IsConcrete ∧ right.IsConcrete := by
  unfold IsConcrete
  simp only [Option.isSome_iff_exists, expr?_binary_iff]
  constructor
  · rintro ⟨_, kind, leftExpr, rightExpr, isKind, ofLeft, ofRight, rfl⟩
    exact ⟨⟨kind, isKind⟩, ⟨leftExpr, ofLeft⟩, ⟨rightExpr, ofRight⟩⟩
  · rintro ⟨⟨kind, isKind⟩, ⟨leftExpr, ofLeft⟩, ⟨rightExpr, ofRight⟩⟩
    exact ⟨_, kind, leftExpr, rightExpr, isKind, ofLeft, ofRight, rfl⟩

theorem classOfOperation_injective
    {operation operation' : Option Operation}
    (same : classOfOperation operation = classOfOperation operation') :
    operation = operation' := by
  cases operation <;> cases operation' <;> cases same <;> rfl

theorem includes_classOfOperation
    (kind other : Operation) :
    (classOfOperation (some kind)).includes (classOfOperation (some other)) =
      decide (kind = other) := by
  cases kind <;> cases other <;> rfl

theorem eq_plain_of_classOf
    (same : Class.node = a.classOf) :
    ∃ location, a = .plain location := by
  cases a with
  | plain location => exact ⟨location, rfl⟩
  | binary operation => cases operation <;> cases same
  | _ => cases same

theorem eq_expression_of_classOf
    (same : Class.expression = a.classOf) :
    ∃ location, a = .expression location := by
  cases a with
  | expression location => exact ⟨location, rfl⟩
  | binary operation => cases operation <;> cases same
  | _ => cases same

theorem agrees_number_iff
    {value other : Int}
    {here there : Location} :
    Agrees (.number value here) (.number other there) ↔ value = other := by
  constructor
  · rintro ⟨⟩
    rfl
  · rintro rfl
    exact .number value here there

theorem agrees_binary_iff
    {operation operation' : Option Operation}
    {left left' right right' : Node}
    {here there : Location} :
    Agrees (.binary operation left right here) (.binary operation' left' right' there) ↔
      (classOfOperation operation).includes (classOfOperation operation') = true ∧
        Agrees left left' ∧ Agrees right right' := by
  constructor
  · rintro ⟨⟩
    exact ⟨‹_›, ‹_›, ‹_›⟩
  · rintro ⟨includes, ofLeft, ofRight⟩
    exact .binary here there includes ofLeft ofRight

theorem agrees_leaf_iff
    (notNumber : ∀ value location, a ≠ .number value location)
    (notBinary : ∀ operation left right location, a ≠ .binary operation left right location) :
    Agrees a b ↔ a.classOf.includes b.classOf = true := by
  cases a with
  | plain location => exact iff_of_true (.plain location b) rfl
  | expression location =>
      constructor
      · rintro ⟨⟩
        assumption
      · exact .expression location
  | number value location => exact absurd rfl (notNumber value location)
  | binary operation left right location =>
      exact absurd rfl (notBinary operation left right location)

/-- The list of pairs agrees exactly when in each of them the first tree agrees with the second. -/
theorem allAgree_iff
    (pairs : List (Node × Node)) :
    allAgree pairs = true ↔ ∀ pair ∈ pairs, Agrees pair.1 pair.2 := by
  fun_induction allAgree pairs with
  | case1 => simp
  | case2 value here rest otherValue there ih =>
      rw [Bool.and_eq_true, ih, List.forall_mem_cons, agrees_number_iff]
      exact and_congr_left' beq_iff_eq
  | case3 value here other rest notNumber =>
      rw [List.forall_mem_cons]
      constructor
      · nofun
      · rintro ⟨⟨⟩, _⟩
        exact (notNumber _ _ rfl).elim
  | case4 operation left right here rest operation' left' right' there ih =>
      rw [Bool.and_eq_true, ih, List.forall_mem_cons, List.forall_mem_cons, List.forall_mem_cons,
        agrees_binary_iff]
      constructor
      · rintro ⟨includes, ofRight, ofLeft, behind⟩
        exact ⟨⟨includes, ofLeft, ofRight⟩, behind⟩
      · rintro ⟨⟨includes, ofLeft, ofRight⟩, behind⟩
        exact ⟨includes, ofRight, ofLeft, behind⟩
  | case5 operation left right here other rest notBinary =>
      rw [List.forall_mem_cons]
      constructor
      · nofun
      · rintro ⟨⟨⟩, _⟩
        exact (notBinary _ _ _ _ rfl).elim
  | case6 leaf other rest notNumber notBinary ih =>
      rw [Bool.and_eq_true, ih, List.forall_mem_cons, agrees_leaf_iff notNumber notBinary]

theorem agrees_iff : a.agrees b = true ↔ Agrees a b := by
  rw [agrees, allAgree_iff, List.forall_mem_singleton]

namespace Agrees

theorem includes
    (agrees : Agrees a b) :
    a.classOf.includes b.classOf = true := by
  cases agrees with
  | plain => rfl
  | expression _ includes => exact includes
  | number => rfl
  | binary _ _ includes _ _ => exact includes

theorem refl
    (node : Node) :
    Agrees node node := by
  induction node with
  | plain location => exact .plain location _
  | expression location => exact .expression location rfl
  | number value location => exact .number value location location
  | binary operation left right location ihLeft ihRight =>
      exact .binary location location (Class.includes_refl _) ihLeft ihRight

theorem trans
    (first : Agrees a b)
    (second : Agrees b c) :
    Agrees a c := by
  induction first generalizing c with
  | plain location other => exact .plain location c
  | expression location includes =>
      exact .expression location (Class.includes_trans includes second.includes)
  | number value here there =>
      cases second with
      | number _ _ location => exact .number value here location
  | binary here there includes ofLeft ofRight ihLeft ihRight =>
      cases second with
      | binary _ location includes' ofLeft' ofRight' =>
          exact .binary here location (Class.includes_trans includes includes') (ihLeft ofLeft')
            (ihRight ofRight')

/-- What a tree of numbers and operations agrees with is like it. -/
theorem alike_of_concrete
    (isConcrete : a.IsConcrete)
    (agrees : Agrees a b) :
    a.Alike b := by
  induction agrees with
  | plain location other => cases isConcrete
  | expression location includes => cases isConcrete
  | number value here there => exact .number value trivial
  | @binary operation operation' _ _ _ _ here there includes ofLeft ofRight ihLeft ihRight =>
      obtain ⟨⟨kind, rfl⟩, isLeft, isRight⟩ := isConcrete_binary_iff.mp isConcrete
      have same : some kind = operation' := by
        cases operation' with
        | none => cases kind <;> cases includes
        | some other =>
            rw [includes_classOfOperation, decide_eq_true_iff] at includes
            rw [includes]
      subst same
      exact .binary _ (ihLeft isLeft) (ihRight isRight) trivial

/-- Agreement goes both ways only between trees that are alike. -/
theorem antisymm
    (agrees : Agrees a b)
    (agreed : Agrees b a) :
    a.Alike b := by
  induction agrees with
  | plain location other =>
      cases agreed with
      | plain => exact .plain trivial
      | expression _ includes => cases includes
  | expression location includes =>
      cases agreed with
      | plain => cases includes
      | expression => exact .expression trivial
  | number value here there => exact .number value trivial
  | binary here there includes ofLeft ofRight ihLeft ihRight =>
      cases agreed with
      | binary _ _ includes' ofLeft' ofRight' =>
          cases classOfOperation_injective (Class.includes_antisymm includes includes')
          exact .binary _ (ihLeft ofLeft') (ihRight ofRight') trivial

end Agrees

namespace Alike

theorem symm
    (alike : a.Alike b) :
    b.Alike a := by
  induction alike with
  | plain => exact .plain trivial
  | expression => exact .expression trivial
  | number value => exact .number value trivial
  | binary operation _ _ _ ihLeft ihRight => exact .binary operation ihLeft ihRight trivial

theorem agrees
    (alike : a.Alike b) :
    Agrees a b := by
  induction alike with
  | @plain here there => exact .plain here (.plain there)
  | @expression here there => exact .expression here rfl
  | @number here there value => exact .number value here there
  | @binary _ _ _ _ here there operation _ _ _ ihLeft ihRight =>
      exact .binary here there (Class.includes_refl _) ihLeft ihRight

theorem classOf_eq
    (alike : a.Alike b) :
    a.classOf = b.classOf := by
  cases alike <;> rfl

end Alike

/-- Equal trees are of the same class, and the first of them agrees with the second. -/
theorem equal_iff_agrees :
    a.equal b = true ↔ a.classOf = b.classOf ∧ Agrees a b := by
  unfold equal
  split
  · rename_i special
    obtain ⟨includes, differs⟩ : a.classOf.includes b.classOf = true ∧ a.classOf ≠ b.classOf := by
      simpa [isMoreSpecial] using special
    rw [agrees_iff]
    constructor
    · intro agreed
      exact absurd (Class.includes_antisymm includes agreed.includes) differs
    · rintro ⟨same, _⟩
      exact absurd same differs
  · rename_i notSpecial
    rw [agrees_iff]
    refine ⟨fun agrees => ⟨?_, agrees⟩, And.right⟩
    refine Decidable.byContradiction fun differs => notSpecial ?_
    simp [isMoreSpecial, agrees.includes, differs]

theorem equal_of_alike
    (alike : a.Alike b) :
    a.equal b = true :=
  equal_iff_agrees.mpr ⟨alike.classOf_eq, alike.agrees⟩

theorem equal_refl
    (node : Node) :
    node.equal node = true :=
  equal_iff_agrees.mpr ⟨rfl, .refl node⟩

theorem equal_trans
    (first : a.equal b = true)
    (second : b.equal c = true) :
    a.equal c = true := by
  obtain ⟨sameFirst, agreesFirst⟩ := equal_iff_agrees.mp first
  obtain ⟨sameSecond, agreesSecond⟩ := equal_iff_agrees.mp second
  exact equal_iff_agrees.mpr ⟨sameFirst.trans sameSecond, agreesFirst.trans agreesSecond⟩

/-- Equality goes both ways exactly between trees that only their locations tell apart. -/
theorem equal_symm_iff
    (equal : a.equal b = true) :
    b.equal a = true ↔ a.Alike b := by
  constructor
  · intro equal'
    exact (equal_iff_agrees.mp equal).2.antisymm (equal_iff_agrees.mp equal').2
  · intro alike
    exact equal_of_alike alike.symm

/-- Equal trees are alike if the operands of the first are made of numbers and operations. -/
theorem alike_of_equal
    (concrete : ∀ operand ∈ a.children, operand.IsConcrete)
    (equal : a.equal b = true) :
    a.Alike b := by
  obtain ⟨same, agrees⟩ := equal_iff_agrees.mp equal
  cases agrees with
  | plain =>
      obtain ⟨location, rfl⟩ := eq_plain_of_classOf same
      exact .plain trivial
  | expression =>
      obtain ⟨location, rfl⟩ := eq_expression_of_classOf same
      exact .expression trivial
  | number value => exact .number value trivial
  | binary here there includes ofLeft ofRight =>
      cases classOfOperation_injective same
      obtain ⟨isLeft, others⟩ := List.forall_mem_cons.mp concrete
      have isRight := List.forall_mem_singleton.mp others
      exact .binary _ (ofLeft.alike_of_concrete isLeft) (ofRight.alike_of_concrete isRight) trivial

/--
Equal are trees of the same class of which the first agrees with the second. So equality is
reflexive and transitive. Whether two trees are equal does not depend on their order exactly if
they are alike wherever one equals the other. What a tree equals whose operands are made of
numbers and operations equals it, too.
-/
theorem equal_preorder
    (a b c : Node) :
    (a.equal b = true ↔ a.classOf = b.classOf ∧ Agrees a b) ∧
    a.equal a = true ∧
    (a.equal b = true → b.equal c = true → a.equal c = true) ∧
    ((a.equal b = true ↔ b.equal a = true) ↔
      (a.equal b = true ∨ b.equal a = true → a.Alike b)) ∧
    ((∀ operand ∈ a.children, operand.IsConcrete) → a.equal b = true → b.equal a = true) := by
  refine ⟨equal_iff_agrees, equal_refl a, equal_trans, ⟨fun both => ?_, fun alike => ?_⟩,
    fun concrete equal => ?_⟩
  · rintro (equal | equal)
    · exact (equal_symm_iff equal).mp (both.mp equal)
    · exact (equal_symm_iff (both.mpr equal)).mp equal
  · exact ⟨fun equal => equal_of_alike (alike (.inl equal)).symm,
      fun equal => equal_of_alike (alike (.inr equal))⟩
  · exact (equal_symm_iff equal).mpr (alike_of_equal concrete equal)

/-- Binary expressions without an operation, read from different places. -/
theorem equal_preorder_pair :
    let pair (location : Location) : Node :=
      .binary none (.number 1 location) (.number 2 location) location
    let first := pair .unknown
    let second := pair (.startOf "one")
    let third := pair (.startOf "other")
    (∀ operand ∈ first.children, operand.IsConcrete) ∧
    first.equal second = true ∧ second.equal third = true ∧
    first.equal third = true ∧ second.equal first = true ∧ first.Alike second := by
  intro pair first second third
  have alike (here there : Location) : (pair here).Alike (pair there) :=
    .binary none (.number 1 trivial) (.number 2 trivial) trivial
  have concrete : ∀ operand ∈ first.children, operand.IsConcrete :=
    List.forall_mem_cons.mpr ⟨rfl, List.forall_mem_singleton.mpr rfl⟩
  obtain ⟨_, _, transitive, both, symmetric⟩ := equal_preorder first second third
  have ofSecond := equal_of_alike (alike .unknown (.startOf "one"))
  have ofThird := equal_of_alike (alike (.startOf "one") (.startOf "other"))
  have back := symmetric concrete ofSecond
  exact ⟨concrete, ofSecond, ofThird, transitive ofSecond ofThird, back,
    both.mp (iff_of_true ofSecond back) (.inl ofSecond)⟩

/-- A plain node as an operand equals a number there, and not the other way round. -/
theorem equal_plain_operand :
    let sum (left : Node) : Node := .binary (some .addition) left (.number 2 .unknown) .unknown
    (sum (.plain .unknown)).equal (sum (.number 1 .unknown)) = true ∧
      (sum (.number 1 .unknown)).equal (sum (.plain .unknown)) = false := by
  intro sum
  constructor
  · exact equal_iff_agrees.mpr
      ⟨rfl, .binary .unknown .unknown rfl (.plain .unknown _) (.refl _)⟩
  · refine Bool.eq_false_iff.mpr fun equal => ?_
    obtain ⟨_, ofOperand, _⟩ := agrees_binary_iff.mp (equal_iff_agrees.mp equal).2
    cases ofOperand

end Node
end Precedence
