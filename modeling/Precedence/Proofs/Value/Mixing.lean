import Mathlib.Data.List.Basic
import Precedence.Value.Hash

/-!
# How the hashes of items are mixed

Nothing is lost where the hash of an item is mixed into what was mixed before: different items
give different mixtures, and different mixtures stay different (`mix_item_inj`, `mix_mixed_inj`).
So tuples that differ in the hash of one item only have different hashes, unless one of them
is the replacement of the reserved word, and of three such tuples two have different hashes
(`ofItems_ne_or_ne`). Tuples that differ in more than one item may share a hash.
-/

namespace Precedence
namespace Hash

/-- What undoes the factor of an item. -/
def itemInverse : Hash := 839798700976720815

/-- What undoes the factor of all that was mixed before. -/
def stepInverse : Hash := 614540362697595703

variable {mixed mixed' item item' : Hash}

theorem mul_inj_of_inverse
    {factor inverse : Hash}
    (undone : factor * inverse = 1)
    (same : item * factor = item' * factor) :
    item = item' := by
  have undo (word : Hash) : word * factor * inverse = word := by
    rw [BitVec.mul_assoc, undone]
    exact BitVec.mul_one word
  calc item = item * factor * inverse := (undo item).symm
    _ = item' * factor * inverse := by rw [same]
    _ = item' := undo item'

/-- A rotation takes each bit to a place of its own. -/
theorem rotateLeft_inj
    (same : mixed.rotateLeft rotation = mixed'.rotateLeft rotation) :
    mixed = mixed' := by
  refine BitVec.eq_of_getLsbD_eq fun place within => ?_
  have bit (there : Nat) := congrArg (fun word : Hash => word.getLsbD there) same
  simp only [BitVec.getLsbD_rotateLeft, rotation] at bit
  -- The lower places are moved up, and the upper ones come down to where there is room.
  by_cases lower : place + 31 < 64
  · simpa [lower, within, show ¬ place + 31 < 31 by omega] using bit (place + 31)
  · simpa [show place - 33 < 31 by omega, show 33 + (place - 33) = place by omega]
      using bit (place - 33)

theorem mix_inj
    (same : mix mixed item = mix mixed' item') :
    mixed + item * itemFactor = mixed' + item' * itemFactor :=
  rotateLeft_inj (mul_inj_of_inverse (by decide : stepFactor * stepInverse = 1) same)

/-- Different items give different mixtures. -/
theorem mix_item_inj
    (same : mix mixed item = mix mixed item') :
    item = item' :=
  mul_inj_of_inverse (by decide : itemFactor * itemInverse = 1)
    (BitVec.add_right_inj mixed |>.mp (mix_inj same))

/-- Different mixtures stay different. -/
theorem mix_mixed_inj
    (same : mix mixed item = mix mixed' item) :
    mixed = mixed' :=
  (BitVec.add_left_inj _).mp (mix_inj same)

theorem foldl_mix_inj
    (items : List Hash)
    (same : items.foldl mix mixed = items.foldl mix mixed') :
    mixed = mixed' := by
  induction items generalizing mixed mixed' with
  | nil => exact same
  | cons item rest ih => exact mix_mixed_inj (ih same)

/-- Only the reserved word shares its hash with another word. -/
theorem finish_inj
    (same : finish mixed = finish mixed') :
    mixed = mixed' ∨
      mixed = reserved ∧ mixed' = replacement ∨ mixed = replacement ∧ mixed' = reserved := by
  unfold finish at same
  split_ifs at same with isReserved isReserved' isReserved'
  · exact .inl (isReserved.trans isReserved'.symm)
  · exact .inr (.inl ⟨isReserved, same.symm⟩)
  · exact .inr (.inr ⟨same, isReserved'⟩)
  · exact .inl same

/-- What the items of a tuple are mixed into, with their number counted in. -/
def mixture (items : List Hash) : Hash :=
  items.foldl mix mixingStart + (BitVec.ofNat 64 items.length ^^^ lengthMask)

theorem mixture_inj
    {front back : List Hash}
    (same : mixture (front ++ item :: back) = mixture (front ++ item' :: back)) :
    item = item' := by
  simp only [mixture, List.length_append, List.length_cons, List.foldl_append,
    List.foldl_cons] at same
  exact mix_item_inj (foldl_mix_inj back ((BitVec.add_left_inj _).mp same))

/-- Of three tuples that differ in the hash of one item two have different hashes. -/
theorem ofItems_ne_or_ne
    {first second third : Hash}
    (differ : first ≠ second)
    (differ' : first ≠ third)
    (differ'' : second ≠ third)
    (front back : List Hash) :
    ofItems (front ++ first :: back) ≠ ofItems (front ++ second :: back) ∨
      ofItems (front ++ first :: back) ≠ ofItems (front ++ third :: back) := by
  by_contra alike
  obtain ⟨same, same'⟩ := not_or.mp alike
  have mixed := (finish_inj (not_not.mp same)).resolve_left (mt mixture_inj differ)
  have mixed' := (finish_inj (not_not.mp same')).resolve_left (mt mixture_inj differ')
  -- The first mixture has one of the two roles, so the other two have the other one.
  refine differ'' (@mixture_inj _ _ front back ?_)
  have roles : reserved ≠ replacement := by decide
  rcases mixed with ⟨isFirst, isSecond⟩ | ⟨isFirst, isSecond⟩ <;>
    rcases mixed' with ⟨isFirst', isThird⟩ | ⟨isFirst', isThird⟩
  · exact isSecond.trans isThird.symm
  · exact absurd (isFirst.symm.trans isFirst') roles
  · exact absurd (isFirst'.symm.trans isFirst) roles
  · exact isSecond.trans isThird.symm

/-- Tuples that differ in both of their items may share a hash. -/
example : ofItems [1, 2] = ofItems [5, 1678395250935405368] := by
  decide

end Hash
end Precedence
