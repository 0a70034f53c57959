import Precedence.Number.Binary64
import Precedence.Value.Basic

/-!
# Hashes of values

A hash is a machine word. It is computed in two steps. The *hash key* of a value is what
its hash depends on: numbers have their residue modulo a prime for a key, so equal numbers
share a key and so do some different ones, such as `-1` and `-2`, or any two that differ by
a multiple of the prime; the empty text has the key of the number zero; a tuple has the
keys of its items. Lists and mappings have no key, and neither have values with such a
part.

The hash is then computed from the key. Equal keys give equal hashes. Different keys may
do so too, because the hashes of the items of a tuple are mixed into one word: those of
`(1, 2)` and `(5, 1678395250935405368)` are the same. How a text or an object is hashed is
up to each run of a program (`Hashing`).
-/

namespace Precedence

/-- The number of a place in a hash table. -/
abbrev Hash := BitVec 64

/-- What hashes depend on that each run of a program chooses anew. -/
structure Hashing (ω : Type) where
  ofNull : Hash
  /-- The hash of a double that is not a number, here the same for all of them. -/
  ofUndefined : Hash
  /-- The hash of a text with some code points. -/
  ofText : List Nat → Hash
  ofObject : ω → Hash

/-- What the hash of a value depends on. -/
inductive HashKey (ω : Type) where
  | null
  | number (residue : Int)
  | undefined
  | text (codePoints : List Nat)
  | tuple (keys : List (HashKey ω))
  | object (value : ω)

/-! ## Mixing hashes -/

namespace Hash

/-- The hash of no items, before their number is counted in. -/
def mixingStart : Hash := 2870177450012600261

/-- The factor of an item. -/
def itemFactor : Hash := 14029467366897019727

/-- The factor of all that was mixed before. -/
def stepFactor : Hash := 11400714785074694791

/-- The places by which a mixture is rotated. -/
def rotation : Nat := 31

/-- What the number of items is combined with. -/
def lengthMask : Hash := mixingStart ^^^ 3527539

/-- The word that is no hash, since it tells that there is none. -/
def reserved : Hash := -1

/-- The hash that stands for the reserved word. -/
def replacement : Hash := 1546275796

/-- Mix the hash of an item into what was mixed before. -/
def mix (mixed item : Hash) : Hash :=
  (mixed + item * itemFactor).rotateLeft rotation * stepFactor

/-- The hash that a mixture becomes in the end. -/
def finish (mixed : Hash) : Hash :=
  if mixed = reserved then replacement else mixed

/-- The hash of a tuple, given the hashes of its items. -/
def ofItems (items : List Hash) : Hash :=
  finish (items.foldl mix mixingStart + (BitVec.ofNat 64 items.length ^^^ lengthMask))

end Hash

namespace HashKey

variable {ω : Type}

/-- The key of a text with some code points. -/
def ofCodePoints (codePoints : List Nat) : HashKey ω :=
  if codePoints.isEmpty then number 0 else text codePoints

/-- The key of a text. -/
def ofText (value : String) : HashKey ω :=
  ofCodePoints (value.toList.map Char.toNat)

mutual

/-- The hash that is computed from a key. -/
def hash (hashing : Hashing ω) : HashKey ω → Hash
  | null => hashing.ofNull
  | number residue => BitVec.ofInt 64 residue
  | undefined => hashing.ofUndefined
  | text codePoints => hashing.ofText codePoints
  | tuple keys => Hash.ofItems (hashes hashing keys)
  | object value => hashing.ofObject value

/-- The hashes of the items of a tuple. -/
def hashes (hashing : Hashing ω) : List (HashKey ω) → List Hash
  | [] => []
  | key :: keys => hash hashing key :: hashes hashing keys

end

end HashKey

/-! ## Keys of values -/

namespace Value

/-- The prime modulo which numbers are hashed. -/
def hashModulus : Nat := Nat.pow 2 61 - 1

/-- The residue of a number with the given sign and magnitude; `-1` is replaced by `-2`. -/
def signedResidue (negative : Bool) (magnitude : Nat) : Int :=
  let residue : Int := (magnitude % hashModulus : Nat)
  let signed := if negative then -residue else residue
  if signed = -1 then -2 else signed

variable {ω : Type}

/-- The key of a double: powers of two repeat modulo the prime with period 61. -/
def floatKey (x : Float) : HashKey ω :=
  match Binary64.ofFloat? x with
  | some binary =>
      .number (signedResidue binary.negative
        (binary.mantissa * Nat.pow 2 (binary.exponent % 61).toNat))
  | none =>
      if x.isNaN then .undefined else .number (if x < 0 then -314159 else 314159)

variable [Objects ω]

mutual

/-- The hash key of a value, or the kind of the part that cannot be hashed. -/
def hashKey : Value ω → Except String (HashKey ω)
  | null => .ok .null
  | bool value => .ok (.number (if value then 1 else 0))
  | int value => .ok (.number (signedResidue (value < 0) value.natAbs))
  | float value => .ok (floatKey value)
  | text value => .ok (.ofText value)
  | brokenText codePoints => .ok (.ofCodePoints codePoints)
  | tuple items => do
      let keys ← hashKeys items
      return .tuple keys
  | list items => .error (list items).kindName
  | mapping entries => .error (mapping entries).kindName
  | object value =>
      if Objects.isHashable value then .ok (.object value)
      else .error (Objects.kindName value)

/-- The hash keys of all items, or the kind of the first part that has none. -/
def hashKeys : List (Value ω) → Except String (List (HashKey ω))
  | [] => .ok []
  | item :: rest => do
      let key ← hashKey item
      let keys ← hashKeys rest
      return key :: keys

end

/-- The hash of a value, or the kind of the part that cannot be hashed. -/
def hash (hashing : Hashing ω) (value : Value ω) : Except String Hash :=
  value.hashKey.map (·.hash hashing)

end Value
end Precedence
