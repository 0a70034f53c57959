import Precedence.Proofs.Node.Agreement

/-!
# Equality of expressions

Between trees that are made of numbers and operations, equality is being alike: the same shape,
the same operation at every node and the same value at every number (`equal_structural`). So it
is an equivalence that fits the constructors, and locations play no part in it. Equal trees have
the same hash, but for numbers of too many digits, which have none (`hash_none_of_equal`).
-/

namespace Precedence
namespace Node

variable {a a' b b' : Node}
variable {expr expr' : Expr}

/-- Trees are alike exactly when they denote the same expression. -/
theorem alike_iff
    (ofA : a.expr? = some expr)
    (ofB : b.expr? = some expr') :
    a.Alike b ↔ expr = expr' := by
  constructor
  · intro alike
    induction alike generalizing expr expr' with
    | plain => cases ofA
    | expression => cases ofA
    | number value => exact Option.some.inj (ofA.symm.trans ofB)
    | binary operation _ _ _ ihLeft ihRight =>
        obtain ⟨kind, _, _, rfl, ofLeft, ofRight, rfl⟩ := expr?_binary_iff.mp ofA
        obtain ⟨_, _, _, ⟨⟩, ofLeft', ofRight', rfl⟩ := expr?_binary_iff.mp ofB
        rw [ihLeft ofLeft ofLeft', ihRight ofRight ofRight']
  · rintro rfl
    induction a generalizing b expr with
    | plain => cases ofA
    | expression => cases ofA
    | number value location =>
        cases ofA
        cases b with
        | plain => cases ofB
        | expression => cases ofB
        | number => cases ofB; exact .number value trivial
        | binary =>
            obtain ⟨_, _, _, _, _, _, ⟨⟩⟩ := expr?_binary_iff.mp ofB
    | binary operation left right location ihLeft ihRight =>
        obtain ⟨kind, _, _, rfl, ofLeft, ofRight, rfl⟩ := expr?_binary_iff.mp ofA
        cases b with
        | plain => cases ofB
        | expression => cases ofB
        | number => cases ofB
        | binary =>
            obtain ⟨_, _, _, rfl, ofLeft', ofRight', ⟨⟩⟩ := expr?_binary_iff.mp ofB
            exact .binary _ (ihLeft ofLeft ofLeft') (ihRight ofRight ofRight') trivial

theorem equal_iff_alike
    (isConcrete : a.IsConcrete) :
    a.equal b = true ↔ a.Alike b := by
  constructor
  · intro equal
    exact (equal_iff_agrees.mp equal).2.alike_of_concrete isConcrete
  · exact equal_of_alike

/-- Trees that denote expressions are equal exactly when the expressions are. -/
theorem equal_iff
    (ofA : a.expr? = some expr)
    (ofB : b.expr? = some expr') :
    a.equal b = true ↔ expr = expr' :=
  (equal_iff_alike (Option.isSome_of_eq_some ofA)).trans (alike_iff ofA ofB)

theorem equal_comm
    (isA : a.IsConcrete)
    (isB : b.IsConcrete) :
    b.equal a = a.equal b := by
  rw [Bool.eq_iff_iff, equal_iff_alike isA, equal_iff_alike isB]
  exact ⟨Alike.symm, Alike.symm⟩

theorem equal_number
    (value value' : Int)
    (here there : Location) :
    (number value here).equal (number value' there) = decide (value = value') := by
  rw [Bool.eq_iff_iff, equal_iff_agrees, agrees_number_iff, decide_eq_true_iff]
  exact and_iff_right rfl

theorem equal_binary
    (isLeft : a.IsConcrete)
    (isRight : a'.IsConcrete)
    (operation operation' : Operation)
    (here there : Location) :
    (binary (some operation) a a' here).equal (binary (some operation') b b' there) =
      (decide (operation = operation') && (a.equal b && a'.equal b')) := by
  have concrete (location : Location) : (binary (some operation) a a' location).IsConcrete :=
    isConcrete_binary_iff.mpr ⟨⟨operation, rfl⟩, isLeft, isRight⟩
  rw [Bool.eq_iff_iff, Bool.and_eq_true, Bool.and_eq_true, decide_eq_true_iff,
    equal_iff_alike (concrete here), equal_iff_alike isLeft, equal_iff_alike isRight]
  constructor
  · rintro ⟨⟩
    exact ⟨rfl, ‹_›, ‹_›⟩
  · rintro ⟨rfl, ofLeft, ofRight⟩
    exact .binary _ ofLeft ofRight trivial

/-- Inequality is what its name says, since the same tree is asked. -/
theorem unequal_eq
    (a b : Node) :
    a.unequal b = !a.equal b := by
  unfold unequal equal
  split <;> rfl

/-- Trees that only their locations tell apart are equal to the same trees. -/
theorem equal_congr
    (likeA : a.Alike a')
    (likeB : b.Alike b') :
    a'.equal b' = a.equal b := by
  rw [Bool.eq_iff_iff]
  constructor
  · intro equal
    exact equal_trans (equal_of_alike likeA) (equal_trans equal (equal_of_alike likeB.symm))
  · intro equal
    exact equal_trans (equal_of_alike likeA.symm) (equal_trans equal (equal_of_alike likeB))

/-- A number of too many digits has no hash. -/
theorem hash_of_long
    (hashing : Hashing Class)
    {value : Int}
    (long : ¬ value.natAbs < Nat.pow 10 Numeral.digitLimit)
    (location : Location) :
    (number value location).hash hashing = .error .tooLongToWrite := by
  rw [hash, hashKey, dataKey, Numeral.write, if_neg long]
  rfl

/-- Only numbers of too many digits have no hash. -/
theorem exists_hash_of_short
    (hashing : Hashing Class)
    (short : ∀ value location, a = .number value location →
      value.natAbs < Nat.pow 10 Numeral.digitLimit) :
    ∃ hash, a.hash hashing = .ok hash := by
  cases a with
  | number value location =>
      rw [hash, hashKey, dataKey, Numeral.write, if_pos (short value location rfl)]
      exact ⟨_, rfl⟩
  | _ => exact ⟨_, rfl⟩

/-- Equal trees have the same class and the same data. -/
theorem hashKey_eq_of_equal
    (equal : a.equal b = true) :
    a.hashKey = b.hashKey := by
  obtain ⟨same, agrees⟩ := equal_iff_agrees.mp equal
  cases agrees with
  | plain =>
      obtain ⟨location, rfl⟩ := eq_plain_of_classOf same
      rfl
  | expression =>
      obtain ⟨location, rfl⟩ := eq_expression_of_classOf same
      rfl
  | number => rfl
  | binary =>
      cases classOfOperation_injective same
      rfl

theorem hash_eq_of_equal
    (hashing : Hashing Class)
    (equal : a.equal b = true) :
    a.hash hashing = b.hash hashing := by
  rw [hash, hash, hashKey_eq_of_equal equal]

end Node
end Precedence
