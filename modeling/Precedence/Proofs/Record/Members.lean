import Precedence.LevelTable
import Precedence.Proofs.Record.Equality

/-!
# Locations, tokens and levels as records

Locations, tokens and the levels of a table are records. What is defined for each of them is
what records have in common: their equality is that of the record, and so is the literal.

A token has its location for a value, and a level the class of its nodes. Both are objects among
the values, and both are comparable (`Location.comparable`, `OperatorLevel.comparable_class`). So
the laws of records as keys are those of tokens and levels, too: equal tokens have the same hash
(`Token.hash_record_eq`), and each level has one (`OperatorLevel.exists_hash_record`).
-/

namespace Precedence

namespace Record

variable {ω : Type}

/-- The record of a class that skips nothing, with a value for each property. -/
def ofProperties (className : String) (properties : List (String × Value ω)) : Record ω :=
  ⟨⟨className, properties.map Prod.fst, none⟩, properties⟩

/-- The names that mean something beside the properties. -/
def meaningfulNames : List String :=
  [propertyNamesKey, skippedNamesKey, attributesKey, watchersKey]

variable {properties properties' : List (String × Value ω)}
variable {name : String}
variable {names : List String}

theorem exists_lookup_of_mem
    (isProperty : name ∈ properties.map Prod.fst) :
    ∃ value, properties.lookup name = some value := by
  obtain ⟨property, given, rfl⟩ := List.mem_map.mp isProperty
  exact Option.isSome_iff_exists.mp
    (List.lookup_isSome_iff.mpr ⟨property, given, beq_self_eq_true property.1⟩)

theorem lookup_eq_none_of_not_mem
    (visible : name ∉ properties.map Prod.fst) :
    properties.lookup name = none :=
  List.lookup_eq_none_iff.mpr fun _ isProperty =>
    bne_iff_ne.mpr fun same => visible (same ▸ List.mem_map_of_mem isProperty)

variable [Objects ω]

theorem getNamed_ofProperties
    (className : String)
    (areNames : properties.map Prod.fst = names)
    (ordinary : ∀ name ∈ names, name ∉ meaningfulNames)
    (isProperty : name ∈ names) :
    (ofProperties className properties).getNamed (.text name) =
      .ok ((ofProperties className properties).valueOf name) := by
  obtain ⟨value, found⟩ := exists_lookup_of_mem (areNames ▸ isProperty)
  have different := ordinary name isProperty
  simp only [meaningfulNames, List.mem_cons, not_or] at different
  have isValue : (ofProperties className properties).attribute? name = some value :=
    attribute?_of_lookup_some found different.2.2.1 different.2.2.2.1
  rw [getNamed_of_attribute isValue, valueOf, isValue, Option.getD_some]

/-- Records of a class that skips nothing are equal if all their properties are. -/
theorem equal_ofProperties
    (className : String)
    (properties properties' : List (String × Value ω))
    (areNames : properties.map Prod.fst = names)
    (areNames' : properties'.map Prod.fst = names)
    (ordinary : ∀ name ∈ names, name ∉ meaningfulNames) :
    (ofProperties className properties).equal (ofProperties className properties') =
      .ok (names.all fun name => ((ofProperties className properties).valueOf name).equal
        ((ofProperties className properties').valueOf name)) := by
  have absent (key : String) (isKey : key ∈ meaningfulNames) : properties.lookup key = none :=
    lookup_eq_none_of_not_mem fun isProperty => ordinary key (areNames ▸ isProperty) isKey
  have skips (name : String) (_ : name ∈ names) :
      (ofProperties className properties).skips (.text name) = .ok ((fun _ => false) name) := by
    rw [skips, attribute?_of_lookup_none (absent skippedNamesKey (by decide)) (by decide)
      (by decide)]
    rfl
  have lists : (ofProperties className properties).propertyList = .ok (names.map .text) := by
    rw [propertyList_of_lookup_none (absent propertyNamesKey (by decide)), ← areNames]
    rfl
  have sameClass : (ofProperties className properties).recordClass =
      (ofProperties className properties').recordClass := by
    rw [ofProperties, ofProperties, areNames, areNames']
  rw [equal, if_pos sameClass, lists]
  exact agreeOn_eq skips
    (fun _ isProperty => getNamed_ofProperties className areNames ordinary isProperty)
    fun _ isProperty => getNamed_ofProperties className areNames' ordinary isProperty

/-- Records of a class that skips nothing, with values of a domain. -/
theorem instance_ofProperties
    {domain : Value ω → Prop}
    (className : String)
    (ordinary : ∀ name ∈ properties.map Prod.fst, name ∉ meaningfulNames)
    (inDomain : ∀ property ∈ properties, domain property.2)
    (made : create ⟨className, properties.map Prod.fst, none⟩ (properties.map Prod.snd) [] =
      .ok (ofProperties className properties)) :
    Instance domain (ofProperties className properties) where
  plain :=
    ⟨fun isProperty => ordinary _ isProperty (by decide),
      fun isProperty => ordinary _ isProperty (by decide)⟩
  made := ⟨_, _, made⟩
  valued := by
    intro name isProperty value isValue
    obtain ⟨found, isFound⟩ := exists_lookup_of_mem isProperty
    have different := ordinary name isProperty
    simp only [meaningfulNames, List.mem_cons, not_or] at different
    rw [attribute?_of_lookup_some isFound different.2.2.1 different.2.2.2.1] at isValue
    obtain rfl := Option.some.inj isValue
    obtain ⟨front, back, split, -⟩ := List.lookup_eq_some_iff.mp isFound
    exact inDomain (name, found) (split ▸ List.mem_append_right front List.mem_cons_self)

end Record

/-! ## Locations -/

namespace Location

/-- The names of the properties of a location. -/
def propertyNames : List String :=
  ["fileName", "beginRow", "beginColumn", "endRow", "endColumn"]

/-- A location as a record. -/
def record (location : Location) : Record Empty :=
  .ofProperties "Location" (propertyNames.zip location.properties)

theorem literal_record
    (location : Location) :
    location.record.literal = .ok location.literal :=
  rfl

theorem hash_record
    (hashing : Hashing Empty)
    (location : Location) :
    location.record.hash hashing = (location.hash hashing).mapError .unhashable :=
  rfl

theorem equal_record
    (a b : Location) :
    a.record.equal b.record = .ok (a == b) := by
  have ordinary : ∀ name ∈ propertyNames, name ∉ Record.meaningfulNames := by decide
  have compared := Record.equal_ofProperties "Location" (propertyNames.zip a.properties)
    (propertyNames.zip b.properties) rfl rfl ordinary
  refine compared.trans (congrArg _ ?_)
  change (a.span.fileName == b.span.fileName && (a.span.start.row == b.span.start.row &&
    (a.span.start.column == b.span.start.column && (a.span.stop.row == b.span.stop.row &&
      (a.span.stop.column == b.span.stop.column && true))))) = (a.span == b.span)
  generalize a.span = s
  generalize b.span = t
  obtain ⟨file, ⟨row, column⟩, ⟨row', column'⟩⟩ := s
  obtain ⟨other, ⟨first, second⟩, ⟨third, fourth⟩⟩ := t
  rw [Bool.eq_iff_iff]
  simp [and_assoc]

/-- The hashing under which locations are hashed as the records that they are. -/
def hashing (ofOthers : Hashing Empty) : Hashing Location :=
  ⟨ofOthers.ofNull, ofOthers.ofUndefined, ofOthers.ofText, fun location =>
    (Value.tuple location.properties).hashOf ofOthers⟩

theorem equal_iff
    {a b : Location} :
    Objects.equal a b = true ↔ a.span = b.span :=
  beq_iff_eq (a := a.span)

/-- Locations are comparable objects. -/
theorem comparable
    (ofOthers : Hashing Empty) :
    Objects.Comparable (hashing ofOthers) where
  isHashable _ := rfl
  refl _ := equal_iff.mpr rfl
  symm same := equal_iff.mpr (equal_iff.mp same).symm
  trans same same' := equal_iff.mpr ((equal_iff.mp same).trans (equal_iff.mp same'))
  hash_eq same := by simp only [hashing, properties, equal_iff.mp same]

end Location

/-! ## Tokens -/

namespace Token

/-- The properties of a token by their names. -/
def properties (token : Token) : List (String × Value Location) :=
  [("text", .text token.text), ("tag", .text token.tag), ("location", .object token.location)]

/-- A token as a record. -/
def record (token : Token) : Record Location :=
  .ofProperties "Token" token.properties

theorem literal_record
    (token : Token) :
    token.record.literal = .ok token.literal :=
  rfl

theorem equal_record
    (a b : Token) :
    a.record.equal b.record = .ok (a == b) := by
  have ordinary : ∀ name ∈ ["text", "tag", "location"], name ∉ Record.meaningfulNames := by
    decide
  have compared := Record.equal_ofProperties "Token" a.properties b.properties rfl rfl ordinary
  refine compared.trans (congrArg _ ?_)
  change (a.text == b.text && (a.tag == b.tag && (a.location == b.location && true))) =
    (a.text == b.text && a.tag == b.tag && a.location == b.location)
  rw [Bool.and_true, Bool.and_assoc]

theorem instance_record
    (token : Token) :
    Record.Instance Value.IsAtom token.record := by
  refine Record.instance_ofProperties "Token" ?_ ?_ rfl
  · change ∀ name ∈ ["text", "tag", "location"], name ∉ Record.meaningfulNames
    decide
  · simp [properties, Value.IsAtom]

/-- Equal tokens have the same hash. -/
theorem hash_record_eq
    {a b : Token}
    (areEqual : a == b)
    (ofOthers : Hashing Empty) :
    ∃ hash, a.record.hash (Location.hashing ofOthers) = .ok hash ∧
      b.record.hash (Location.hashing ofOthers) = .ok hash := by
  have comparable := Value.comparable_isAtom (Location.comparable ofOthers)
  have same := Record.hash_eq_of_equal comparable a.instance_record b.instance_record
    (by rw [equal_record, areEqual]) nofun
  have hashed := a.instance_record.hash_eq comparable
  exact ⟨_, hashed, same.symm.trans hashed⟩

end Token

/-! ## Levels -/

namespace OperatorLevel

/-- The properties of a level by their names. -/
def properties (level : OperatorLevel) : List (String × Value Node.Class) :=
  [("operator", .text level.operator), ("node", .object (.operation level.operation)),
    ("associativity", .text level.associativity.name)]

/-- A level as a record. -/
def record (level : OperatorLevel) : Record Node.Class :=
  .ofProperties "OperatorLevel" level.properties

theorem equal_record
    (a b : OperatorLevel) :
    a.record.equal b.record = .ok (a = b) := by
  have ordinary : ∀ name ∈ ["operator", "node", "associativity"],
      name ∉ Record.meaningfulNames := by
    decide
  have compared :=
    Record.equal_ofProperties "OperatorLevel" a.properties b.properties rfl rfl ordinary
  refine compared.trans (congrArg _ ?_)
  change (a.operator == b.operator && (decide (Node.Class.operation a.operation =
    .operation b.operation) && (a.associativity.name == b.associativity.name && true))) = _
  obtain ⟨operator, operation, side⟩ := a
  obtain ⟨operator', operation', side'⟩ := b
  have sameSide : side.name = side'.name ↔ side = side' := by
    cases side <;> cases side' <;> decide
  rw [Bool.eq_iff_iff]
  simp [sameSide]

theorem instance_record
    (level : OperatorLevel) :
    Record.Instance Value.IsAtom level.record := by
  refine Record.instance_ofProperties "OperatorLevel" ?_ ?_ rfl
  · change ∀ name ∈ ["operator", "node", "associativity"], name ∉ Record.meaningfulNames
    decide
  · simp [properties, Value.IsAtom]

/-- Classes of nodes are comparable objects. -/
theorem comparable_class
    (hashing : Hashing Node.Class) :
    Objects.Comparable hashing :=
  .of_faithful (fun _ => rfl) (fun _ _ => decide_eq_true_iff) hashing

/-- Every level has a hash. -/
theorem exists_hash_record
    (level : OperatorLevel)
    (hashing : Hashing Node.Class) :
    ∃ hash, level.record.hash hashing = .ok hash :=
  ⟨_, level.instance_record.hash_eq (Value.comparable_isAtom (comparable_class hashing))⟩

end OperatorLevel

end Precedence
