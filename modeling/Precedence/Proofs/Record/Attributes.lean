import Mathlib.Data.List.Basic
import Precedence.Proofs.Parser.Inversion
import Precedence.Record.Basic

/-!
# Attributes of records

What it takes to make a record is a value for each property. Unless a property is called like one
of the attributes that follow rules of their own, each class has a record with any such values
(`exists_create`). What a record has no value for is what its class says.
-/

namespace Precedence

/-- Every property can be given any value. -/
structure RecordClass.Assignable (recordClass : RecordClass) : Prop where
  not_class : Record.classKey ∉ recordClass.propertyNames
  not_watchers : Record.watchersKey ∉ recordClass.propertyNames
  not_attributes : Record.attributesKey ∉ recordClass.propertyNames

namespace Record

variable {ω : Type}
variable {recordClass : RecordClass}
variable {record : Record ω}
variable {attributes attributes' : List (String × Value ω)}
variable {name : String}
variable {names : List String}
variable {value : Value ω}

theorem lookup_cons
    (name first : String)
    (value : Value ω)
    (attributes : List (String × Value ω)) :
    ((first, value) :: attributes).lookup name =
      if name = first then some value else attributes.lookup name := by
  by_cases same : name = first
  · rw [if_pos same, List.lookup_cons, beq_iff_eq.mpr same]
  · rw [if_neg same, List.lookup_cons, beq_eq_false_iff_ne.mpr same]

theorem lookup_put
    (name other : String)
    (value : Value ω)
    (attributes : List (String × Value ω)) :
    (put name value attributes).lookup other =
      if other = name then some value else attributes.lookup other := by
  induction attributes with
  | nil => exact lookup_cons ..
  | cons entry rest ih =>
      obtain ⟨first, old⟩ := entry
      rw [put]
      split_ifs with here same same
      · rw [lookup_cons, if_pos same]
      · rw [lookup_cons, lookup_cons, if_neg same, if_neg (here ▸ same)]
      · rw [lookup_cons, ih, if_pos same, if_neg fun isFirst => here (isFirst.symm.trans same)]
      · rw [lookup_cons, lookup_cons, ih, if_neg same]

/-- What a record has no value for is what its class says. -/
theorem attribute?_of_lookup_none
    (lacking : record.attributes.lookup name = none)
    (notAttributes : name ≠ attributesKey)
    (notWatchers : name ≠ watchersKey) :
    record.attribute? name = classAttribute? record.recordClass name := by
  rw [attribute?, if_neg notAttributes, if_neg notWatchers, lacking, Option.none_or]

theorem attribute?_of_lookup_some
    (found : record.attributes.lookup name = some value)
    (notAttributes : name ≠ attributesKey)
    (notWatchers : name ≠ watchersKey) :
    record.attribute? name = some value := by
  rw [attribute?, if_neg notAttributes, if_neg notWatchers, found, Option.some_or]

variable [Objects ω]

theorem assign_of_ok
    (ordinary : name ≠ attributesKey)
    (assigned : assign attributes (name, value) = .ok attributes') :
    attributes' = put name value attributes := by
  simp only [assign] at assigned
  split_ifs at assigned
  exact (Except.ok.inj assigned).symm

theorem assign_ordinary
    (notClass : name ≠ classKey)
    (notWatchers : name ≠ watchersKey)
    (notAttributes : name ≠ attributesKey)
    (value : Value ω)
    (attributes : List (String × Value ω)) :
    assign attributes (name, value) = .ok (put name value attributes) := by
  simp only [assign, if_neg notClass, if_neg notWatchers, if_neg notAttributes]

/-- After some assignments there are values for the names that are assigned, and those before. -/
theorem lookup_of_assigned
    {assignments : List (String × Value ω)}
    (ordinary : attributesKey ∉ assignments.map Prod.fst)
    (assigned : assignments.foldlM assign attributes = .ok attributes')
    (name : String) :
    (attributes'.lookup name).isSome = true ↔
      name ∈ assignments.map Prod.fst ∨ (attributes.lookup name).isSome = true := by
  induction assignments generalizing attributes with
  | nil =>
      cases assigned
      simp
  | cons assignment rest ih =>
      obtain ⟨first, given⟩ := assignment
      rw [List.map_cons, List.mem_cons, not_or] at ordinary
      rw [List.foldlM_cons] at assigned
      cases assignedFirst : assign attributes (first, given) with
      | error => rw [assignedFirst] at assigned; cases assigned
      | ok middle =>
          rw [assignedFirst] at assigned
          rw [ih ordinary.2 assigned, assign_of_ok (Ne.symm ordinary.1) assignedFirst, lookup_put]
          by_cases same : name = first <;> simp [same]

theorem mem_iff_of_sameNames
    {lacking named : List String}
    (same : sameNames lacking named = true)
    (name : String) :
    name ∈ named ↔ name ∈ lacking := by
  simp only [sameNames, Bool.and_eq_true, List.all_eq_true, List.contains_iff_mem] at same
  exact ⟨same.2 name, same.1 name⟩

/-- What a record is made from has exactly the names of its properties. -/
theorem create_inv
    {positional : List (Value ω)}
    {named : List (String × Value ω)}
    (made : create recordClass positional named = .ok record) :
    record.recordClass = recordClass ∧
    ∃ assignments : List (String × Value ω),
      (∀ name, name ∈ assignments.map Prod.fst ↔ name ∈ recordClass.propertyNames) ∧
      assignments.foldlM assign [] = .ok record.attributes := by
  simp only [create] at made
  split_ifs at made with _ fits
  obtain ⟨sameLength, same⟩ := fits
  have short : positional.length ≤ recordClass.propertyNames.length := by omega
  obtain ⟨attributes, assigned, returned⟩ := Parser.bind_inv made
  cases returned
  refine ⟨rfl, _, fun name => ?_, assigned⟩
  -- The values in order are for the names in front, and those by name for the names behind them.
  have inFront : (recordClass.propertyNames.zip positional).map Prod.fst =
      recordClass.propertyNames.take positional.length := by
    rw [List.zip_eq_zip_take_min, Nat.min_eq_right short, List.take_length,
      List.map_fst_zip (List.length_take_le ..)]
  rw [List.map_append, List.mem_append, inFront, mem_iff_of_sameNames same, ← List.mem_append,
    List.take_append_drop]

/-- Ordinary names can be given any values. -/
theorem foldlM_assign
    (valueFor : String → Value ω)
    (notClass : classKey ∉ names)
    (notWatchers : watchersKey ∉ names)
    (notAttributes : attributesKey ∉ names)
    (attributes : List (String × Value ω)) :
    ∃ attributes',
      (names.map fun name => (name, valueFor name)).foldlM assign attributes = .ok attributes' ∧
      ∀ name, attributes'.lookup name =
        if name ∈ names then some (valueFor name) else attributes.lookup name := by
  induction names generalizing attributes with
  | nil => exact ⟨attributes, rfl, fun name => (if_neg List.not_mem_nil).symm⟩
  | cons first rest ih =>
      rw [List.mem_cons, not_or] at notClass notWatchers notAttributes
      obtain ⟨attributes', assigned, finds⟩ :=
        ih notClass.2 notWatchers.2 notAttributes.2 (put first (valueFor first) attributes)
      refine ⟨attributes', ?_, fun name => ?_⟩
      · rw [List.map_cons, List.foldlM_cons,
          assign_ordinary (Ne.symm notClass.1) (Ne.symm notWatchers.1) (Ne.symm notAttributes.1)]
        exact assigned
      · rw [finds, lookup_put]
        by_cases isFirst : name = first <;> simp [isFirst]

theorem getNamed_of_attribute
    (isValue : record.attribute? name = some value) :
    record.getNamed (.text name) = .ok value := by
  rw [getNamed, get, isValue]

/-- A class can have a record with any values for its properties. -/
theorem exists_create
    (assignable : recordClass.Assignable)
    (valueFor : String → Value ω) :
    ∃ record, create recordClass (recordClass.propertyNames.map valueFor) [] = .ok record ∧
      record.recordClass = recordClass ∧
      (∀ name ∈ recordClass.propertyNames, record.attribute? name = some (valueFor name)) ∧
      ∀ name ∉ recordClass.propertyNames, record.attributes.lookup name = none := by
  obtain ⟨attributes, assigned, finds⟩ :=
    foldlM_assign valueFor assignable.not_class assignable.not_watchers assignable.not_attributes []
  rw [List.map_prod_left_eq_zip] at assigned
  refine ⟨⟨recordClass, attributes⟩, ?_, rfl, fun name isProperty => ?_, fun name visible => ?_⟩
  · simp [create, sameNames, assigned]
  · exact attribute?_of_lookup_some ((finds name).trans (if_pos isProperty))
      (ne_of_mem_of_not_mem isProperty assignable.not_attributes)
      (ne_of_mem_of_not_mem isProperty assignable.not_watchers)
  · exact (finds name).trans (if_neg visible)

end Record
end Precedence
