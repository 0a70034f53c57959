import Mathlib.Data.List.Forall2
import Precedence.Value.Equality
import Precedence.Value.Hash

/-!
# Comparable values

Values whose equality is an equivalence that agrees with their hash (`Comparable`). Single values
are so, doubles apart, if objects are (`comparable_isAtom`); and tuples of comparable values are
comparable (`Comparable.tuples`).
-/

namespace Precedence

variable {ω : Type} [Objects ω]
variable {hashing : Hashing ω}

/-- Objects that have a hash, and an equivalence that agrees with it. -/
structure Objects.Comparable (hashing : Hashing ω) : Prop where
  isHashable (x : ω) : Objects.isHashable x = true
  refl (x : ω) : Objects.equal x x = true
  symm {x y : ω} : Objects.equal x y = true → Objects.equal y x = true
  trans {x y z : ω} : Objects.equal x y = true → Objects.equal y z = true → Objects.equal x z = true
  hash_eq {x y : ω} : Objects.equal x y = true → hashing.ofObject x = hashing.ofObject y

/-- Objects that are equal only to themselves agree with any hash. -/
theorem Objects.Comparable.of_faithful
    (isHashable : ∀ x : ω, Objects.isHashable x = true)
    (faithful : ∀ x y : ω, Objects.equal x y = true ↔ x = y)
    (hashing : Hashing ω) :
    Objects.Comparable hashing where
  isHashable := isHashable
  refl x := (faithful x x).mpr rfl
  symm same := (faithful _ _).mpr ((faithful _ _).mp same).symm
  trans same same' := (faithful _ _).mpr (((faithful _ _).mp same).trans ((faithful _ _).mp same'))
  hash_eq same := congrArg _ ((faithful _ _).mp same)

/-- Where there are no objects, all of them are comparable. -/
theorem Objects.comparable_empty
    (hashing : Hashing Empty) :
    Objects.Comparable hashing :=
  .of_faithful nofun nofun hashing

namespace Value

variable {domain : Value ω → Prop}

/-- Values that can be hashed, and an equivalence that agrees with the hash. -/
structure Comparable (hashing : Hashing ω) (domain : Value ω → Prop) : Prop where
  hashable {v : Value ω} : domain v → ∃ hash, v.hash hashing = .ok hash
  refl {v : Value ω} : domain v → v.equal v = true
  symm {v w : Value ω} : domain v → domain w → v.equal w = true → w.equal v = true
  trans {u v w : Value ω} : domain u → domain v → domain w →
    u.equal v = true → v.equal w = true → u.equal w = true
  hash_eq {v w : Value ω} : domain v → domain w →
    v.equal w = true → v.hash hashing = w.hash hashing

theorem Comparable.mono
    {domain' : Value ω → Prop}
    (comparable : Comparable hashing domain)
    (within : ∀ v, domain' v → domain v) :
    Comparable hashing domain' where
  hashable isV := comparable.hashable (within _ isV)
  refl isV := comparable.refl (within _ isV)
  symm isV isW := comparable.symm (within _ isV) (within _ isW)
  trans isU isV isW := comparable.trans (within _ isU) (within _ isV) (within _ isW)
  hash_eq isV isW := comparable.hash_eq (within _ isV) (within _ isW)

/-! ## Single values -/

section Atoms

/-- A value without parts that is no double. -/
def IsAtom : Value ω → Prop
  | null => True
  | bool _ => True
  | int _ => True
  | text _ => True
  | brokenText _ => True
  | object _ => True
  | _ => False

/-- Single values that are equal. -/
inductive Same : Value ω → Value ω → Prop
  | null : Same null null
  | number
      {v w : Value ω}
      {n : Int}
      (first : v.number? = some (.int n))
      (second : w.number? = some (.int n)) :
      Same v w
  | text (value : String) : Same (text value) (text value)
  | brokenText (codePoints : List Nat) : Same (brokenText codePoints) (brokenText codePoints)
  | object
      {x y : ω}
      (same : Objects.equal x y = true) :
      Same (object x) (object y)

variable {u v w : Value ω}

theorem equal_iff_same
    (isV : v.IsAtom)
    (isW : w.IsAtom) :
    v.equal w = true ↔ v.Same w := by
  constructor
  · intro areEqual
    cases v <;> cases w <;> simp only [IsAtom] at isV isW <;>
      simp [equal, equalAtoms, number?, Number.equal] at areEqual
    case null.null => exact .null
    case text.text => exact areEqual ▸ .text _
    case brokenText.brokenText => exact areEqual ▸ .brokenText _
    case object.object => exact .object areEqual
    all_goals exact .number rfl (by simp [number?, areEqual])
  · intro same
    cases same with
    | null => rw [equal]
    | text => rw [equal, beq_self_eq_true]
    | brokenText => rw [equal, beq_self_eq_true]
    | object same => rwa [equal]
    | number first second =>
        cases v <;> cases w <;> simp_all [equal, equalAtoms, number?, Number.equal]

namespace Same

theorem symm
    (comparable : Objects.Comparable hashing)
    (same : v.Same w) :
    w.Same v := by
  cases same with
  | null => exact .null
  | number first second => exact .number second first
  | text value => exact .text value
  | brokenText codePoints => exact .brokenText codePoints
  | object same => exact .object (comparable.symm same)

theorem trans
    (comparable : Objects.Comparable hashing)
    (same : u.Same v)
    (same' : v.Same w) :
    u.Same w := by
  cases same with
  | null => exact same'
  | text value => exact same'
  | brokenText codePoints => exact same'
  | number first second =>
      cases same' with
      | number first' second' =>
          cases second.symm.trans first'
          exact .number first second'
      | _ => cases second
  | object same =>
      cases same' with
      | number first' => cases first'
      | object same' => exact .object (comparable.trans same same')

end Same

theorem hash_of_number
    {n : Int}
    (isNumber : v.number? = some (.int n)) :
    v.hash hashing = .ok (BitVec.ofInt 64 (signedResidue (n < 0) n.natAbs)) := by
  cases v with
  | bool value =>
      cases isNumber
      cases value <;> rfl
  | int value =>
      cases isNumber
      rfl
  | _ => cases isNumber

theorem Same.hash_eq
    (comparable : Objects.Comparable hashing)
    (same : v.Same w) :
    v.hash hashing = w.hash hashing := by
  cases same with
  | null => rfl
  | text => rfl
  | brokenText => rfl
  | number first second => rw [hash_of_number first, hash_of_number second]
  | @object x y same =>
      simp only [hash, hashKey, comparable.isHashable, if_true, Except.map, HashKey.hash,
        comparable.hash_eq same]

/-- Single values are comparable if objects are. -/
theorem comparable_isAtom
    (comparable : Objects.Comparable hashing) :
    Comparable hashing (IsAtom (ω := ω)) where
  hashable := by
    intro v isV
    cases v with
    | object x => exact ⟨_, by rw [hash, hashKey, if_pos (comparable.isHashable x)]; rfl⟩
    | float => cases isV
    | list => cases isV
    | tuple => cases isV
    | mapping => cases isV
    | _ => exact ⟨_, rfl⟩
  refl := by
    intro v isV
    cases v with
    | object x => exact comparable.refl x
    | float => cases isV
    | list => cases isV
    | tuple => cases isV
    | mapping => cases isV
    | _ => simp [equal, equalAtoms, number?, Number.equal]
  symm isV isW areEqual :=
    (equal_iff_same isW isV).mpr (((equal_iff_same isV isW).mp areEqual).symm comparable)
  trans isU isV isW areEqual areEqual' :=
    (equal_iff_same isU isW).mpr (((equal_iff_same isU isV).mp areEqual).trans comparable
      ((equal_iff_same isV isW).mp areEqual'))
  hash_eq isV isW areEqual := ((equal_iff_same isV isW).mp areEqual).hash_eq comparable

end Atoms

/-! ## Tuples -/

section Tuples

variable {items others : List (Value ω)}

theorem equalItems_iff :
    equalItems items others = true ↔
      List.Forall₂ (fun item other => equal item other = true) items others := by
  induction items generalizing others with
  | nil => cases others <;> simp [equalItems]
  | cons item rest ih => cases others <;> simp [equalItems, ih]

theorem equal_tuple_iff :
    (tuple items).equal (tuple others) = true ↔
      List.Forall₂ (fun item other => equal item other = true) items others := by
  rw [equal, equalItems_iff]

/-- The hash of a value that has one. -/
def hashOf (hashing : Hashing ω) (value : Value ω) : Hash :=
  (value.hash hashing).toOption.getD 0

theorem hash_eq_ok_hashOf
    {value : Value ω}
    (hashable : ∃ hash, value.hash hashing = .ok hash) :
    value.hash hashing = .ok (value.hashOf hashing) := by
  obtain ⟨hash, isHash⟩ := hashable
  rw [hashOf, isHash]
  rfl

theorem exists_hashKeys
    (hashable : ∀ item ∈ items, ∃ hash, item.hash hashing = .ok hash) :
    ∃ keys, hashKeys items = .ok keys ∧
      HashKey.hashes hashing keys = items.map (hashOf hashing) := by
  induction items with
  | nil => exact ⟨[], rfl, rfl⟩
  | cons item rest ih =>
      obtain ⟨hashableItem, hashable⟩ := List.forall_mem_cons.mp hashable
      obtain ⟨keys, areKeys, hashes⟩ := ih hashable
      have isHash := hash_eq_ok_hashOf hashableItem
      cases isKey : item.hashKey with
      | error kind =>
          rw [hash, isKey] at isHash
          cases isHash
      | ok key =>
          rw [hash, isKey] at isHash
          refine ⟨key :: keys, ?_, ?_⟩
          · rw [hashKeys, isKey, areKeys]
            rfl
          · rw [HashKey.hashes, hashes, List.map_cons, ← Except.ok.inj isHash]

/-- The hash of a tuple is made of those of its items. -/
theorem hash_tuple
    (hashable : ∀ item ∈ items, ∃ hash, item.hash hashing = .ok hash) :
    (tuple items).hash hashing = .ok (Hash.ofItems (items.map (hashOf hashing))) := by
  obtain ⟨keys, areKeys, hashes⟩ := exists_hashKeys hashable
  rw [hash, hashKey, areKeys, ← hashes]
  rfl

/-- Tuples of comparable values are comparable. -/
theorem Comparable.tuples
    (comparable : Comparable hashing domain) :
    Comparable hashing fun v => ∃ items, v = tuple items ∧ ∀ item ∈ items, domain item where
  hashable := by
    rintro _ ⟨items, rfl, inDomain⟩
    exact ⟨_, hash_tuple fun item isItem => comparable.hashable (inDomain item isItem)⟩
  refl := by
    rintro _ ⟨items, rfl, inDomain⟩
    exact equal_tuple_iff.mpr
      (List.forall₂_same.mpr fun item isItem => comparable.refl (inDomain item isItem))
  symm := by
    rintro _ _ ⟨items, rfl, inDomain⟩ ⟨others, rfl, inDomain'⟩ areEqual
    rw [equal_tuple_iff] at areEqual ⊢
    induction areEqual with
    | nil => exact .nil
    | cons sameFirst _ ih =>
        obtain ⟨first, inDomain⟩ := List.forall_mem_cons.mp inDomain
        obtain ⟨first', inDomain'⟩ := List.forall_mem_cons.mp inDomain'
        exact .cons (comparable.symm first first' sameFirst) (ih inDomain inDomain')
  trans := by
    rintro _ _ _ ⟨items, rfl, inDomain⟩ ⟨others, rfl, inDomain'⟩ ⟨last, rfl, inDomain''⟩
      areEqual areEqual'
    rw [equal_tuple_iff] at areEqual areEqual' ⊢
    induction areEqual generalizing last with
    | nil => exact areEqual'
    | cons sameFirst _ ih =>
        cases areEqual' with
        | cons sameFirst' sameRest' =>
            obtain ⟨first, inDomain⟩ := List.forall_mem_cons.mp inDomain
            obtain ⟨first', inDomain'⟩ := List.forall_mem_cons.mp inDomain'
            obtain ⟨first'', inDomain''⟩ := List.forall_mem_cons.mp inDomain''
            exact .cons (comparable.trans first first' first'' sameFirst sameFirst')
              (ih inDomain inDomain' _ inDomain'' sameRest')
  hash_eq := by
    rintro _ _ ⟨items, rfl, inDomain⟩ ⟨others, rfl, inDomain'⟩ areEqual
    rw [hash_tuple fun item isItem => comparable.hashable (inDomain item isItem),
      hash_tuple fun item isItem => comparable.hashable (inDomain' item isItem)]
    rw [equal_tuple_iff] at areEqual
    congr 2
    induction areEqual with
    | nil => rfl
    | cons sameFirst _ ih =>
        obtain ⟨first, inDomain⟩ := List.forall_mem_cons.mp inDomain
        obtain ⟨first', inDomain'⟩ := List.forall_mem_cons.mp inDomain'
        rw [List.map_cons, List.map_cons, ih inDomain inDomain', hashOf, hashOf,
          comparable.hash_eq first first' sameFirst]

theorem text_equal
    (name other : String) :
    (text name : Value ω).equal (text other) = (name == other) := by
  rw [equal]

/-- A tuple of texts. -/
def texts (names : List String) : Value ω :=
  tuple (names.map text)

theorem texts_equal
    (names names' : List String) :
    (texts names : Value ω).equal (texts names') = true ↔ names = names' := by
  rw [texts, texts, equal_tuple_iff, List.forall₂_map_left_iff, List.forall₂_map_right_iff]
  simp only [text_equal, beq_iff_eq, List.forall₂_eq_eq_eq]

theorem comparable_texts
    (comparable : Objects.Comparable hashing) :
    Comparable hashing fun v => ∃ names, texts names = v := by
  refine (comparable_isAtom comparable).tuples.mono ?_
  rintro _ ⟨names, rfl⟩
  exact ⟨_, rfl, List.forall_mem_map.mpr fun _ _ => trivial⟩

end Tuples

end Value
end Precedence
