import Mathlib.Data.List.Nodup
import Precedence.Proofs.Record.Attributes
import Precedence.Proofs.Value.Comparison
import Precedence.Proofs.Value.Mixing
import Precedence.Record.Equality

/-!
# Records as keys

Records whose values can be compared and hashed in agreement with each other can be so, too: their
equality is an equivalence, it always answers, and inequality is its negation. Their hash agrees
with it where the hashes of the properties that comparisons skip do, because the hash does not skip
anything. So equal records of a class always share a hash exactly if the class skips none of its
properties (`equal_equivalence`). The values may be objects of any kind, such as other records.

All this is about classes whose properties do not hide what the class says about its records
(`RecordClass.Plain`). The others leave it to each record which properties are compared, and
equality is not even symmetric (`exists_equal_asymmetric`).
-/

namespace Precedence

namespace RecordClass

/-- No property hides what the class says about its records. -/
structure Plain (recordClass : RecordClass) : Prop where
  propertyNames : Record.propertyNamesKey ∉ recordClass.propertyNames
  skippedNames : Record.skippedNamesKey ∉ recordClass.propertyNames

/-- Whether comparisons skip a name. -/
def skips (recordClass : RecordClass) (name : String) : Bool :=
  recordClass.skippedNames.any fun names => names.contains name

end RecordClass

namespace Record

variable {ω : Type} [Objects ω]
variable {hashing : Hashing ω}
variable {domain : Value ω → Prop}
variable {recordClass : RecordClass}
variable {record a b c : Record ω}
variable {name : String}
variable {names : List String}
variable {value : Value ω}

section Comparison

theorem propertyList_of_lookup_none
    (lacking : record.attributes.lookup propertyNamesKey = none) :
    record.propertyList = .ok (record.recordClass.propertyNames.map .text) := by
  rw [propertyList, propertyNames, get,
    attribute?_of_lookup_none lacking (by decide) (by decide)]
  rfl

theorem any_equal_text
    (name : String)
    (names : List String) :
    (names.map Value.text).any (Value.text (ω := ω) name).equal = names.contains name := by
  simp only [List.any_map, Function.comp_def, Value.text_equal, List.contains_eq_any_beq]

theorem isFoundIn_nameList
    (name : String)
    (names : List String) :
    isFoundIn (ω := ω) (.text name) (nameList names) = .ok (names.contains name) :=
  congrArg Except.ok (any_equal_text name names)

theorem isFoundIn_texts
    (name : String)
    (names : List String) :
    isFoundIn (ω := ω) (.text name) (.texts names) = .ok (names.contains name) :=
  congrArg Except.ok (any_equal_text name names)

/-- Records that answer about some names are compared by them, apart from those to skip. -/
theorem agreeOn_eq
    {skipped : String → Bool}
    {valueFor valueFor' : String → Value ω}
    (skips : ∀ name ∈ names, a.skips (.text name) = .ok (skipped name))
    (ofA : ∀ name ∈ names, a.getNamed (.text name) = .ok (valueFor name))
    (ofB : ∀ name ∈ names, b.getNamed (.text name) = .ok (valueFor' name)) :
    agreeOn a b (names.map .text) =
      .ok (names.all fun name => skipped name || (valueFor name).equal (valueFor' name)) := by
  induction names with
  | nil => rfl
  | cons name rest ih =>
      obtain ⟨skipsName, skips⟩ := List.forall_mem_cons.mp skips
      obtain ⟨nameOfA, ofA⟩ := List.forall_mem_cons.mp ofA
      obtain ⟨nameOfB, ofB⟩ := List.forall_mem_cons.mp ofB
      rw [List.map_cons, agreeOn, skipsName, nameOfA, nameOfB, ih skips ofA ofB, List.all_cons]
      cases skipped name with
      | true => rfl
      | false =>
          change (if (valueFor name).equal (valueFor' name) then Except.ok _ else .ok false) = _
          cases (valueFor name).equal (valueFor' name) <;> rfl

end Comparison

/-! ## Records of comparable values -/

section Instances

/-- The value that a record has for one of its properties. -/
def valueOf (record : Record ω) (name : String) : Value ω :=
  (record.attribute? name).getD .null

/-- A record that was made, whose class does not let it hide anything, with values of a domain. -/
structure Instance (domain : Value ω → Prop) (record : Record ω) : Prop where
  plain : record.recordClass.Plain
  made : ∃ positional named, create record.recordClass positional named = .ok record
  valued : ∀ name ∈ record.recordClass.propertyNames,
    ∀ value, record.attribute? name = some value → domain value

namespace Instance

/-- No property is called like the mapping of all attributes, since a mapping has no hash. -/
theorem notAttributes
    (comparable : Value.Comparable hashing domain)
    (isInstance : Instance domain record) :
    attributesKey ∉ record.recordClass.propertyNames := by
  intro isProperty
  obtain ⟨key, hashed⟩ := comparable.hashable (isInstance.valued _ isProperty _ (if_pos rfl))
  cases hashed

theorem lookup_isSome_iff
    (comparable : Value.Comparable hashing domain)
    (isInstance : Instance domain record)
    (name : String) :
    (record.attributes.lookup name).isSome = true ↔
      name ∈ record.recordClass.propertyNames := by
  obtain ⟨positional, named, made⟩ := isInstance.made
  obtain ⟨-, assignments, namesEq, assigned⟩ := create_inv made
  have ordinary : attributesKey ∉ assignments.map Prod.fst := fun assignedToAll =>
    isInstance.notAttributes comparable ((namesEq _).mp assignedToAll)
  rw [lookup_of_assigned ordinary assigned, namesEq]
  simp

theorem attribute?_property
    (comparable : Value.Comparable hashing domain)
    (isInstance : Instance domain record)
    (isProperty : name ∈ record.recordClass.propertyNames) :
    record.attribute? name = some (record.valueOf name) := by
  have hasValue : (record.attribute? name).isSome = true := by
    have found := (isInstance.lookup_isSome_iff comparable name).mpr isProperty
    unfold attribute?
    split_ifs
    · rfl
    · rfl
    · rw [Option.isSome_or, found, Bool.true_or]
  obtain ⟨value, isValue⟩ := Option.isSome_iff_exists.mp hasValue
  rw [valueOf, isValue, Option.getD_some]

theorem valueOf_inDomain
    (comparable : Value.Comparable hashing domain)
    (isInstance : Instance domain record)
    (isProperty : name ∈ record.recordClass.propertyNames) :
    domain (record.valueOf name) :=
  isInstance.valued name isProperty _ (isInstance.attribute?_property comparable isProperty)

theorem lookup_of_not_property
    (comparable : Value.Comparable hashing domain)
    (isInstance : Instance domain record)
    (visible : name ∉ record.recordClass.propertyNames) :
    record.attributes.lookup name = none := by
  rw [← Option.not_isSome_iff_eq_none, isInstance.lookup_isSome_iff comparable]
  exact visible

theorem propertyList_eq
    (comparable : Value.Comparable hashing domain)
    (isInstance : Instance domain record) :
    record.propertyList = .ok (record.recordClass.propertyNames.map .text) :=
  propertyList_of_lookup_none
    (isInstance.lookup_of_not_property comparable isInstance.plain.propertyNames)

theorem skips_eq
    (comparable : Value.Comparable hashing domain)
    (isInstance : Instance domain record)
    (name : String) :
    record.skips (.text name) = .ok (record.recordClass.skips name) := by
  have lacking := isInstance.lookup_of_not_property comparable isInstance.plain.skippedNames
  have isSkipped : classAttribute? (ω := ω) record.recordClass skippedNamesKey =
      record.recordClass.skippedNames.map nameList := rfl
  rw [Record.skips, attribute?_of_lookup_none lacking (by decide) (by decide), isSkipped,
    RecordClass.skips]
  cases record.recordClass.skippedNames with
  | none => rfl
  | some names =>
      rw [Option.map_some, Option.any_some]
      exact isFoundIn_nameList name names

theorem getNamed_eq
    (comparable : Value.Comparable hashing domain)
    (isInstance : Instance domain record)
    (isProperty : name ∈ record.recordClass.propertyNames) :
    record.getNamed (.text name) = .ok (record.valueOf name) :=
  getNamed_of_attribute (isInstance.attribute?_property comparable isProperty)

end Instance

/-- Records of a class that agree on each property that comparisons do not skip. -/
def Agree (a b : Record ω) : Prop :=
  a.recordClass = b.recordClass ∧
  ∀ name ∈ a.recordClass.propertyNames,
    a.recordClass.skips name = false → (a.valueOf name).equal (b.valueOf name) = true

theorem exists_equal
    (comparable : Value.Comparable hashing domain)
    (isA : Instance domain a)
    (isB : Instance domain b) :
    ∃ answer, a.equal b = .ok answer ∧ (answer = true ↔ a.Agree b) := by
  by_cases sameClass : a.recordClass = b.recordClass
  · refine ⟨a.recordClass.propertyNames.all fun name =>
      a.recordClass.skips name || (a.valueOf name).equal (b.valueOf name), ?_, ?_⟩
    · rw [equal, if_pos sameClass, isA.propertyList_eq comparable]
      exact agreeOn_eq (fun name _ => isA.skips_eq comparable name)
        (fun _ isProperty => isA.getNamed_eq comparable isProperty)
        (fun _ isProperty => isB.getNamed_eq comparable (sameClass ▸ isProperty))
    · rw [Agree, and_iff_right sameClass, List.all_eq_true]
      refine forall₂_congr fun name _ => ?_
      cases a.recordClass.skips name <;> simp
  · exact ⟨false, if_neg sameClass, by simp [Agree, sameClass]⟩

theorem equal_iff
    (comparable : Value.Comparable hashing domain)
    (isA : Instance domain a)
    (isB : Instance domain b) :
    a.equal b = .ok true ↔ a.Agree b := by
  obtain ⟨answer, answered, agree⟩ := exists_equal comparable isA isB
  rw [answered, ← agree, Except.ok.injEq]

namespace Agree

theorem refl
    (comparable : Value.Comparable hashing domain)
    (isA : Instance domain a) :
    a.Agree a :=
  ⟨rfl, fun _ isProperty _ => comparable.refl (isA.valueOf_inDomain comparable isProperty)⟩

theorem symm
    (comparable : Value.Comparable hashing domain)
    (isA : Instance domain a)
    (isB : Instance domain b)
    (agree : a.Agree b) :
    b.Agree a := by
  obtain ⟨sameClass, agree⟩ := agree
  refine ⟨sameClass.symm, fun name isProperty compared => ?_⟩
  have isPropertyOfA : name ∈ a.recordClass.propertyNames := sameClass ▸ isProperty
  exact comparable.symm
    (isA.valueOf_inDomain comparable isPropertyOfA)
    (isB.valueOf_inDomain comparable isProperty)
    (agree name isPropertyOfA (sameClass ▸ compared))

theorem trans
    (comparable : Value.Comparable hashing domain)
    (isA : Instance domain a)
    (isB : Instance domain b)
    (isC : Instance domain c)
    (agree : a.Agree b)
    (agree' : b.Agree c) :
    a.Agree c := by
  obtain ⟨sameClass, agree⟩ := agree
  obtain ⟨sameClass', agree'⟩ := agree'
  refine ⟨sameClass.trans sameClass', fun name isProperty compared => ?_⟩
  have isPropertyOfB : name ∈ b.recordClass.propertyNames := sameClass ▸ isProperty
  have isPropertyOfC : name ∈ c.recordClass.propertyNames := sameClass' ▸ isPropertyOfB
  exact comparable.trans
    (isA.valueOf_inDomain comparable isProperty)
    (isB.valueOf_inDomain comparable isPropertyOfB)
    (isC.valueOf_inDomain comparable isPropertyOfC)
    (agree name isProperty compared)
    (agree' name isPropertyOfB (sameClass ▸ compared))

end Agree

end Instances

/-! ## Hashes -/

section Hashing

namespace Instance

theorem hashable
    (comparable : Value.Comparable hashing domain)
    (isInstance : Instance domain record) :
    ∀ value ∈ record.recordClass.propertyNames.map record.valueOf,
      ∃ hash, value.hash hashing = .ok hash :=
  List.forall_mem_map.mpr fun _ isProperty =>
    comparable.hashable (isInstance.valueOf_inDomain comparable isProperty)

theorem values_eq
    (comparable : Value.Comparable hashing domain)
    (isInstance : Instance domain record)
    (areProperties : ∀ name ∈ names, name ∈ record.recordClass.propertyNames) :
    record.values (names.map .text) = .ok (names.map record.valueOf) := by
  rw [values]
  induction names with
  | nil => rfl
  | cons name rest ih =>
      obtain ⟨isProperty, areProperties⟩ := List.forall_mem_cons.mp areProperties
      rw [List.map_cons, List.mapM_cons, isInstance.getNamed_eq comparable isProperty,
        ih areProperties]
      rfl

/-- The hash of a record is made of those of all its properties. -/
theorem hash_eq
    (comparable : Value.Comparable hashing domain)
    (isInstance : Instance domain record) :
    record.hash hashing = .ok (Hash.ofItems
      ((record.recordClass.propertyNames.map record.valueOf).map (Value.hashOf hashing))) := by
  rw [hash, isInstance.propertyList_eq comparable]
  change record.values _ >>= _ = _
  rw [isInstance.values_eq comparable fun _ isProperty => isProperty]
  change ((Value.tuple _).hash hashing).mapError _ = _
  rw [Value.hash_tuple (isInstance.hashable comparable)]
  rfl

end Instance

/-- Equal records share a hash if they do so in what comparisons skip. -/
theorem hash_eq_of_equal
    (comparable : Value.Comparable hashing domain)
    (isA : Instance domain a)
    (isB : Instance domain b)
    (areEqual : a.equal b = .ok true)
    (skipped : ∀ name ∈ a.recordClass.propertyNames, a.recordClass.skips name = true →
      (a.valueOf name).hash hashing = (b.valueOf name).hash hashing) :
    a.hash hashing = b.hash hashing := by
  obtain ⟨sameClass, agree⟩ := (equal_iff comparable isA isB).mp areEqual
  have same : ∀ name ∈ a.recordClass.propertyNames,
      (a.valueOf name).hash hashing = (b.valueOf name).hash hashing := by
    intro name isProperty
    cases compared : a.recordClass.skips name with
    | true => exact skipped name isProperty compared
    | false =>
        exact comparable.hash_eq
          (isA.valueOf_inDomain comparable isProperty)
          (isB.valueOf_inDomain comparable (sameClass ▸ isProperty))
          (agree name isProperty compared)
  rw [isA.hash_eq comparable, isB.hash_eq comparable, ← sameClass, List.map_map, List.map_map]
  congr 2
  refine List.map_congr_left fun name isProperty => ?_
  simp only [Function.comp_apply, Value.hashOf, same name isProperty]

end Hashing

/-! ## Classes with enough records -/

section Differing

theorem exists_instance
    (plain : recordClass.Plain)
    (assignable : recordClass.Assignable)
    (valueFor : String → Value ω)
    (inDomain : ∀ name, domain (valueFor name)) :
    ∃ record, record.recordClass = recordClass ∧ Instance domain record ∧
      ∀ name ∈ recordClass.propertyNames, record.valueOf name = valueFor name := by
  obtain ⟨record, made, ofClass, isValue, -⟩ := exists_create assignable valueFor
  refine ⟨record, ofClass, ⟨ofClass ▸ plain, ⟨_, _, ofClass ▸ made⟩, ?_⟩, ?_⟩
  · intro name isProperty value hasValue
    rw [isValue name (ofClass ▸ isProperty)] at hasValue
    exact Option.some.inj hasValue ▸ inDomain name
  · intro name isProperty
    rw [valueOf, isValue name isProperty, Option.getD_some]

/-- A record with one value for a property and another value for all others. -/
structure Singles (recordClass : RecordClass) (domain : Value ω → Prop) (name : String)
    (single other : Value ω) (record : Record ω) : Prop where
  ofClass : record.recordClass = recordClass
  isInstance : Instance domain record
  single : name ∈ recordClass.propertyNames → record.valueOf name = single
  others : ∀ other' ∈ recordClass.propertyNames, other' ≠ name → record.valueOf other' = other

theorem exists_singles
    (plain : recordClass.Plain)
    (assignable : recordClass.Assignable)
    (name : String)
    {single other : Value ω}
    (inDomain : domain single)
    (inDomain' : domain other) :
    ∃ record, Singles recordClass domain name single other record := by
  obtain ⟨record, ofClass, isInstance, values⟩ :=
    exists_instance plain assignable (fun here => if here = name then single else other)
      fun here => by split_ifs <;> assumption
  refine ⟨record, ofClass, isInstance, fun isProperty => ?_, fun here isProperty differs => ?_⟩
  · rw [values name isProperty, if_pos rfl]
  · rw [values here isProperty, if_neg differs]

namespace Singles

variable {single single' other : Value ω}

/-- Records that differ in nothing but a property that comparisons skip are equal. -/
theorem equal_of_skips
    (comparable : Value.Comparable hashing domain)
    (inDomain : domain other)
    (skips : recordClass.skips name = true)
    (isA : Singles recordClass domain name single other a)
    (isB : Singles recordClass domain name single' other b) :
    a.equal b = .ok true := by
  refine (equal_iff comparable isA.isInstance isB.isInstance).mpr
    ⟨isA.ofClass.trans isB.ofClass.symm, ?_⟩
  rw [isA.ofClass]
  intro here isProperty compared
  have differs : here ≠ name := fun same => by
    rw [same, skips] at compared
    cases compared
  rw [isA.others here isProperty differs, isB.others here isProperty differs]
  exact comparable.refl inDomain

/-- The hash of such a record is made of one hash among others that are all the same. -/
theorem hash_eq
    (comparable : Value.Comparable hashing domain)
    {front back : List String}
    (split : recordClass.propertyNames = front ++ name :: back)
    (once : name ∉ front ∧ name ∉ back)
    (isA : Singles recordClass domain name single other a) :
    a.hash hashing = .ok (Hash.ofItems ((front.map fun _ => other.hashOf hashing) ++
      single.hashOf hashing :: back.map fun _ => other.hashOf hashing)) := by
  have isOther (names : List String) (within : ∀ here ∈ names, here ∈ recordClass.propertyNames)
      (absent : name ∉ names) :
      (names.map a.valueOf).map (Value.hashOf hashing) =
        names.map fun _ => other.hashOf hashing := by
    rw [List.map_map]
    refine List.map_congr_left fun here among => ?_
    rw [Function.comp_apply,
      isA.others here (within here among) (ne_of_mem_of_not_mem among absent)]
  rw [isA.isInstance.hash_eq comparable, isA.ofClass, split, List.map_append, List.map_append,
    List.map_cons, List.map_cons, isA.single (by simp [split]),
    isOther front (by simp +contextual [split]) once.1,
    isOther back (by simp +contextual [split]) once.2]

end Singles

/--
A class that skips one of its properties has equal records with different hashes, if there are
three values with different hashes for the property.
-/
theorem exists_equal_hash_ne
    (comparable : Value.Comparable hashing domain)
    (plain : recordClass.Plain)
    (assignable : recordClass.Assignable)
    (nodup : recordClass.propertyNames.Nodup)
    (isProperty : name ∈ recordClass.propertyNames)
    (skips : recordClass.skips name = true)
    {u v w : Value ω}
    (inDomain : domain u ∧ domain v ∧ domain w)
    (differ : u.hash hashing ≠ v.hash hashing ∧ u.hash hashing ≠ w.hash hashing ∧
      v.hash hashing ≠ w.hash hashing) :
    ∃ a b, a.recordClass = recordClass ∧ b.recordClass = recordClass ∧
      Instance domain a ∧ Instance domain b ∧
      a.equal b = .ok true ∧ a.hash hashing ≠ b.hash hashing := by
  obtain ⟨isU, isV, isW⟩ := inDomain
  obtain ⟨front, back, split⟩ := List.append_of_mem isProperty
  have once : name ∉ front ∧ name ∉ back := by
    rw [split, List.nodup_middle, List.nodup_cons, List.mem_append, not_or] at nodup
    exact nodup.1
  have hashOf_ne {x y : Value ω} (isX : domain x) (isY : domain y)
      (differ : x.hash hashing ≠ y.hash hashing) : x.hashOf hashing ≠ y.hashOf hashing := by
    intro same
    rw [Value.hash_eq_ok_hashOf (comparable.hashable isX),
      Value.hash_eq_ok_hashOf (comparable.hashable isY), same] at differ
    exact differ rfl
  obtain ⟨a, isA⟩ := exists_singles plain assignable name isU isU
  obtain ⟨b, isB⟩ := exists_singles plain assignable name isV isU
  obtain ⟨c, isC⟩ := exists_singles plain assignable name isW isU
  rcases Hash.ofItems_ne_or_ne (hashOf_ne isU isV differ.1) (hashOf_ne isU isW differ.2.1)
      (hashOf_ne isV isW differ.2.2) (front.map fun _ => u.hashOf hashing)
      (back.map fun _ => u.hashOf hashing) with differs | differs
  · refine ⟨a, b, isA.ofClass, isB.ofClass, isA.isInstance, isB.isInstance,
      isA.equal_of_skips comparable isU skips isB, fun same => differs ?_⟩
    rw [isA.hash_eq comparable split once, isB.hash_eq comparable split once] at same
    exact Except.ok.inj same
  · refine ⟨a, c, isA.ofClass, isC.ofClass, isA.isInstance, isC.isInstance,
      isA.equal_of_skips comparable isU skips isC, fun same => differs ?_⟩
    rw [isA.hash_eq comparable split once, isC.hash_eq comparable split once] at same
    exact Except.ok.inj same

end Differing

section Keys

/--
Equality is an equivalence that always answers, and inequality is its negation. Equal records share
a hash if they do so in what comparisons skip. So all equal records of a class do that skips none
of its properties; and, where the values have hashes enough, of no other class.
-/
theorem equal_equivalence
    (comparable : Value.Comparable hashing domain) :
    (∀ a, Instance domain a → a.equal a = .ok true ∧ ∃ hash, a.hash hashing = .ok hash) ∧
    (∀ a b, Instance domain a → Instance domain b →
      ∃ answer, a.equal b = .ok answer ∧ b.equal a = .ok answer ∧ a.unequal b = .ok (!answer)) ∧
    (∀ a b c, Instance domain a → Instance domain b → Instance domain c →
      a.equal b = .ok true → b.equal c = .ok true → a.equal c = .ok true) ∧
    (∀ a b, Instance domain a → Instance domain b → a.equal b = .ok true →
      (∀ name ∈ a.recordClass.propertyNames, a.recordClass.skips name = true →
        (a.valueOf name).hash hashing = (b.valueOf name).hash hashing) →
      a.hash hashing = b.hash hashing) ∧
    (∀ a b, Instance domain a → Instance domain b → a.equal b = .ok true →
      (∀ name ∈ a.recordClass.propertyNames, a.recordClass.skips name = false) →
      a.hash hashing = b.hash hashing) ∧
    ∀ recordClass : RecordClass, recordClass.Plain → recordClass.Assignable →
      recordClass.propertyNames.Nodup →
      (∃ u v w, (domain u ∧ domain v ∧ domain w) ∧ u.hash hashing ≠ v.hash hashing ∧
        u.hash hashing ≠ w.hash hashing ∧ v.hash hashing ≠ w.hash hashing) →
      (∀ a b, a.recordClass = recordClass → Instance domain a → Instance domain b →
        a.equal b = .ok true → a.hash hashing = b.hash hashing) →
      ∀ name ∈ recordClass.propertyNames, recordClass.skips name = false := by
  refine ⟨?reflexive, ?symmetric, ?transitive, ?hashed, ?always, ?only⟩
  case reflexive =>
    intro a isA
    exact ⟨(equal_iff comparable isA isA).mpr (.refl comparable isA), _, isA.hash_eq comparable⟩
  case symmetric =>
    intro a b isA isB
    obtain ⟨answer, answered, agree⟩ := exists_equal comparable isA isB
    obtain ⟨answer', answered', agree'⟩ := exists_equal comparable isB isA
    have same : answer' = answer := by
      rw [Bool.eq_iff_iff, agree, agree']
      exact ⟨.symm comparable isB isA, .symm comparable isA isB⟩
    refine ⟨answer, answered, same ▸ answered', ?_⟩
    rw [unequal, answered]
    rfl
  case transitive =>
    intro a b c isA isB isC areEqual areEqual'
    rw [equal_iff comparable isA isB] at areEqual
    rw [equal_iff comparable isB isC] at areEqual'
    exact (equal_iff comparable isA isC).mpr (areEqual.trans comparable isA isB isC areEqual')
  case hashed =>
    intro a b isA isB
    exact hash_eq_of_equal comparable isA isB
  case always =>
    intro a b isA isB areEqual nothing
    refine hash_eq_of_equal comparable isA isB areEqual fun name isProperty skips => ?_
    rw [nothing name isProperty] at skips
    cases skips
  case only =>
    rintro recordClass plain assignable nodup ⟨u, v, w, inDomain, differ⟩ always name isProperty
    by_contra skips
    rw [Bool.not_eq_false] at skips
    obtain ⟨a, b, ofClass, -, isA, isB, areEqual, differs⟩ :=
      exists_equal_hash_ne comparable plain assignable nodup isProperty skips inDomain differ
    exact differs (always a b ofClass isA isB areEqual)

/-- Integers as values of a class that skips the second one of its properties. -/
theorem instance_skip
    (x y : Int) :
    Instance (ω := Empty) Value.IsAtom
      ⟨⟨"Skip", ["x", "y"], some ["y"]⟩, [("x", .int x), ("y", .int y)]⟩ where
  plain := ⟨(by decide : propertyNamesKey ∉ ["x", "y"]), (by decide : skippedNamesKey ∉ ["x", "y"])⟩
  made := ⟨[.int x, .int y], [], rfl⟩
  valued := by
    intro name isProperty value hasValue
    rw [List.mem_pair] at isProperty
    obtain rfl | rfl := isProperty
    · exact Option.some.inj hasValue ▸ trivial
    · exact Option.some.inj hasValue ▸ trivial

/-- Single values are comparable, and records of them that differ in what is skipped are equal. -/
theorem equal_equivalence_skip :
    let hashing : Hashing Empty := ⟨0, 0, fun codePoints => BitVec.ofNat 64 codePoints.length, nofun⟩
    let skip : RecordClass := ⟨"Skip", ["x", "y"], some ["y"]⟩
    let a : Record Empty := ⟨skip, [("x", .int 1), ("y", .int 2)]⟩
    let b : Record Empty := ⟨skip, [("x", .int 1), ("y", .int 3)]⟩
    Value.Comparable hashing Value.IsAtom ∧
    Instance Value.IsAtom a ∧ Instance Value.IsAtom b ∧
    a.equal b = .ok true ∧ b.equal a = .ok true ∧ a.unequal b = .ok false ∧
    ¬ ∀ a b, a.recordClass = skip → Instance Value.IsAtom a → Instance Value.IsAtom b →
      a.equal b = .ok true → a.hash hashing = b.hash hashing := by
  intro hashing skip a b
  have comparable := Value.comparable_isAtom (Objects.comparable_empty hashing)
  obtain ⟨-, symmetric, -, -, -, only⟩ := equal_equivalence comparable
  have areEqual : a.equal b = .ok true := by rfl
  obtain ⟨answer, answered, answered', unequal⟩ :=
    symmetric a b (instance_skip 1 2) (instance_skip 1 3)
  cases answered.symm.trans areEqual
  refine ⟨comparable, instance_skip 1 2, instance_skip 1 3, answered, answered', unequal, ?_⟩
  intro always
  have differ : ∃ u v w : Datum, (u.IsAtom ∧ v.IsAtom ∧ w.IsAtom) ∧
      u.hash hashing ≠ v.hash hashing ∧ u.hash hashing ≠ w.hash hashing ∧
      v.hash hashing ≠ w.hash hashing :=
    ⟨.int 1, .int 2, .int 3, ⟨trivial, trivial, trivial⟩, by decide, by decide, by decide⟩
  have nothing := only skip (instance_skip 1 2).plain ⟨by decide, by decide, by decide⟩ (by decide)
    differ always "y" (by decide)
  cases nothing

/-- Equal records of comparable values with different hashes, however texts are hashed. -/
theorem hash_ne_of_equal :
    let skip : RecordClass := ⟨"Skip", ["x", "y"], some ["y"]⟩
    let a : Record Empty := ⟨skip, [("x", .int 1), ("y", .int 2)]⟩
    let b : Record Empty := ⟨skip, [("x", .int 1), ("y", .int 3)]⟩
    (∀ hashing, Value.Comparable hashing (Value.IsAtom (ω := Empty))) ∧
    Instance Value.IsAtom a ∧ Instance Value.IsAtom b ∧
    a.equal b = .ok true ∧ ∀ hashing, a.hash hashing ≠ b.hash hashing := by
  intro skip a b
  refine ⟨fun hashing => Value.comparable_isAtom (Objects.comparable_empty hashing),
    instance_skip 1 2, instance_skip 1 3, rfl, fun hashing same => ?_⟩
  have hashOfA : a.hash hashing = .ok (Hash.ofItems [1, 2]) := rfl
  have hashOfB : b.hash hashing = .ok (Hash.ofItems [1, 3]) := rfl
  rw [hashOfA, hashOfB] at same
  exact absurd (Except.ok.inj same) (by decide)

end Keys

section Hiding

/-- A record with the same names for every property, which are then those that it skips. -/
theorem exists_create_texts
    (assignable : recordClass.Assignable)
    (visible : propertyNamesKey ∉ recordClass.propertyNames)
    (hides : skippedNamesKey ∈ recordClass.propertyNames)
    (names : List String) :
    ∃ record : Record ω,
      create recordClass (recordClass.propertyNames.map fun _ => .texts names) [] = .ok record ∧
      record.recordClass = recordClass ∧
      record.propertyList = .ok (recordClass.propertyNames.map .text) ∧
      (∀ name ∈ recordClass.propertyNames,
        record.skips (.text name) = .ok (names.contains name)) ∧
      ∀ name ∈ recordClass.propertyNames, record.getNamed (.text name) = .ok (.texts names) := by
  obtain ⟨record, made, rfl, isValue, lacking⟩ :=
    exists_create assignable fun _ => Value.texts (ω := ω) names
  refine ⟨record, made, rfl, ?_, fun name _ => ?_, fun name isProperty => ?_⟩
  · exact propertyList_of_lookup_none (lacking _ visible)
  · rw [Record.skips, isValue _ hides]
    exact isFoundIn_texts name names
  · exact getNamed_of_attribute (isValue name isProperty)

/--
A class with a property that hides which ones comparisons skip leaves that to the first record:
one that skips everything is equal to one that skips nothing, but not the other way around.
-/
theorem exists_equal_asymmetric
    (comparable : Objects.Comparable hashing)
    (assignable : recordClass.Assignable)
    (visible : propertyNamesKey ∉ recordClass.propertyNames)
    (hides : skippedNamesKey ∈ recordClass.propertyNames) :
    ∃ (domain : Value ω → Prop) (v w : Value ω) (a b : Record ω),
      Value.Comparable hashing domain ∧ domain v ∧ domain w ∧
      create recordClass (recordClass.propertyNames.map fun _ => v) [] = .ok a ∧
      create recordClass (recordClass.propertyNames.map fun _ => w) [] = .ok b ∧
      a.equal b = .ok true ∧ b.equal a = .ok false := by
  obtain ⟨a, madeA, classOfA, namesOfA, skipsOfA, valuesOfA⟩ :=
    exists_create_texts (ω := ω) assignable visible hides recordClass.propertyNames
  obtain ⟨b, madeB, classOfB, namesOfB, skipsOfB, valuesOfB⟩ :=
    exists_create_texts (ω := ω) assignable visible hides []
  refine ⟨_, _, _, a, b, Value.comparable_texts comparable, ⟨_, rfl⟩, ⟨_, rfl⟩, madeA, madeB, ?_, ?_⟩
  · rw [equal, if_pos (classOfA.trans classOfB.symm), namesOfA]
    refine (agreeOn_eq skipsOfA valuesOfA valuesOfB).trans (congrArg _ ?_)
    exact List.all_eq_true.mpr fun name isProperty =>
      Bool.or_eq_true_iff.mpr (.inl (List.contains_iff_mem.mpr isProperty))
  · rw [equal, if_pos (classOfB.trans classOfA.symm), namesOfB]
    refine (agreeOn_eq skipsOfB valuesOfB valuesOfA).trans (congrArg _ ?_)
    have differ : (Value.texts [] : Value ω).equal (.texts recordClass.propertyNames) ≠ true :=
      mt (Value.texts_equal _ _).mp (List.ne_nil_of_mem hides).symm
    exact List.all_eq_false.mpr ⟨_, hides, by simpa using differ⟩

end Hiding

end Record
end Precedence
