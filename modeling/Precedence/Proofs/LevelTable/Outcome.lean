import Precedence.Arithmetic
import Precedence.Proofs.LevelTable.Checking
import Precedence.Proofs.Value.Writing

/-!
# Which documents are level tables

The rules for the items of a level table, told one by one and without the check: what level an
item gives (`Gives`), and which rule it breaks first if it gives none (`Breaks`). Both depend on
the items before it only for the operators that these have.

A document is a table if it lists items that all give levels. Otherwise it is unfit for the lack
of the list, or for the first item that breaks a rule (`Unfit`). These are the outcomes of the
check, and all of them (`tableOfDocument_outcome`). What is unfit is reported, unless the report
would have to show a value that cannot be written: one with an integer of too many digits
(`tableOfDocument_unwritable`), or with too many values that stand in each other, however many may
do so (`exists_tableOfDocument_nesting`).
-/

namespace Precedence

/-- A natural number of too many digits is not written. -/
theorem Numeral.write_of_long
    {n : Nat}
    (long : ¬ n < Nat.pow 10 digitLimit) :
    write n = .error .tooLongToWrite :=
  if_neg long

theorem Operation.ofName?_name (operation : Operation) :
    Operation.ofName? operation.name = some operation := by
  cases operation <;> decide

theorem Operation.name_of_ofName?
    {name : String}
    {operation : Operation}
    (named : Operation.ofName? name = some operation) :
    name = operation.name := by
  unfold Operation.ofName? at named
  have same := List.find?_some named
  exact (beq_iff_eq.mp same).symm

theorem Associativity.ofName?_name (associativity : Associativity) :
    Associativity.ofName? associativity.name = some associativity := by
  cases associativity <;> decide

theorem Associativity.name_of_ofName?
    {name : String}
    {associativity : Associativity}
    (named : Associativity.ofName? name = some associativity) :
    name = associativity.name := by
  unfold Associativity.ofName? at named
  split at named
  · cases named
    assumption
  · split at named
    · cases named
      assumption
    · cases named

namespace LevelTable

/-- The only printable token of the text is an operator token. -/
def IsOperator (text : String) : Prop :=
  ∃ token, Lexer.printableTokens operatorFile text = .ok [token] ∧ token.tag = Tag.operator

/-- The item gives the level, with an operator that no item before it has. -/
structure Gives (earlier : List Datum) (item : Datum) (level : OperatorLevel) : Prop where
  mapping : ∃ entries, item = .mapping entries
  operator : item.field? "operator" = some (.text level.operator)
  isOperator : IsOperator level.operator
  fresh : ∀ other ∈ earlier, other.field? "operator" ≠ some (.text level.operator)
  node : item.field? "node" = some (.text level.operation.name)
  associativity :
    item.field? "associativity" = some (.text level.associativity.name) ∨
    item.field? "associativity" = none ∧ level.associativity = .left

/-- The item breaks a rule, and the fault is about the first rule that it breaks. -/
inductive Breaks (earlier : List Datum) (item : Datum) : Fault → Prop
  | mapping
      (other : ∀ entries, item ≠ .mapping entries) :
      Breaks earlier item (.notAMapping earlier.length)
  | operator
      {entries : List (Datum × Datum)}
      (isMapping : item = .mapping entries)
      (none : ∀ text, item.field? "operator" = some (.text text) → ¬ IsOperator text) :
      Breaks earlier item
        (.invalidOperator earlier.length ((item.field? "operator").getD .null))
  | duplicate
      {other : Datum}
      {text : String}
      (operator : item.field? "operator" = some (.text text))
      (isOperator : IsOperator text)
      (before : other ∈ earlier)
      (same : other.field? "operator" = some (.text text)) :
      Breaks earlier item (.duplicateOperator text)
  | node
      {text : String}
      (operator : item.field? "operator" = some (.text text))
      (isOperator : IsOperator text)
      (fresh : ∀ other ∈ earlier, other.field? "operator" ≠ some (.text text))
      (unknown : ∀ operation : Operation, item.field? "node" ≠ some (.text operation.name)) :
      Breaks earlier item (.unknownNode earlier.length ((item.field? "node").getD .null))
  | associativity
      {text : String}
      {operation : Operation}
      {value : Datum}
      (operator : item.field? "operator" = some (.text text))
      (isOperator : IsOperator text)
      (fresh : ∀ other ∈ earlier, other.field? "operator" ≠ some (.text text))
      (node : item.field? "node" = some (.text operation.name))
      (present : item.field? "associativity" = some value)
      (neither : ∀ associativity : Associativity, value ≠ .text associativity.name) :
      Breaks earlier item (.invalidAssociativity earlier.length)

/-- Items behind others give the levels of a table, one each and in this order. -/
inductive Describes : List Datum → List Datum → LevelTable → Prop
  | nil
      {earlier : List Datum} :
      Describes earlier [] []
  | cons
      {earlier items : List Datum}
      {item : Datum}
      {level : OperatorLevel}
      {table : LevelTable}
      (gives : Gives earlier item level)
      (others : Describes (earlier ++ [item]) items table) :
      Describes earlier (item :: items) (level :: table)

/-- The document is a mapping that has the items in its list of levels. -/
def Lists (document : Datum) (items : List Datum) : Prop :=
  ∃ entries, document = .mapping entries ∧ Value.lookup? "levels" entries = some (.list items)

/-- The document has a fault: it lists nothing, or of its items the first that gives no level. -/
inductive Unfit (document : Datum) : Fault → Prop
  | noLevels
      (none : ∀ items, ¬ Lists document items) :
      Unfit document .noLevels
  | item
      {front back : List Datum}
      {item : Datum}
      {levels : LevelTable}
      {fault : Fault}
      (lists : Lists document (front ++ item :: back))
      (before : Describes [] front levels)
      (breaks : Breaks front item fault) :
      Unfit document fault

/-- What is looked up as a node class can be looked up. -/
def Hashable (item : Datum) : Prop :=
  ∀ node, item.field? "node" = some node → ∃ key, node.hashKey = .ok key

/-- How a fault comes out: a node class that cannot be looked up is not even unknown. -/
def Fault.error : Fault → Error
  | unknownNode index node =>
      match node.hashKey with
      | .ok _ => .unfit (unknownNode index node)
      | .error kind => .unhashable kind
  | fault => .unfit fault

section Items

variable {seen : List String}
variable {index : Nat}
variable {earlier items front : List Datum}
variable {item document : Datum}
variable {text : String}
variable {level : OperatorLevel}
variable {table levels : LevelTable}
variable {fault : Fault}

theorem isOperator_iff : isOperator text = true ↔ IsOperator text := by
  unfold isOperator IsOperator
  split
  · rename_i token lexes
    simp [lexes]
  · rename_i others
    constructor
    · intro none
      cases none
    · rintro ⟨token, lexes, _⟩
      exact absurd lexes (others token)

theorem operatorOf_of_isOperator
    (given : item.field? "operator" = some (.text text))
    (isText : IsOperator text) :
    operatorOf index item = .ok text := by
  unfold operatorOf
  rw [given]
  exact if_pos (isOperator_iff.mpr isText)

theorem operatorOf_of_none
    (none : ∀ text, item.field? "operator" = some (.text text) → ¬ IsOperator text) :
    operatorOf index item =
      .error (.invalidOperator index ((item.field? "operator").getD .null)) := by
  unfold operatorOf
  cases given : item.field? "operator" with
  | none => rfl
  | some value =>
      cases value with
      | text text => exact if_neg fun isText => none text given (isOperator_iff.mp isText)
      | _ => rfl

theorem operationOf_of_name
    {operation : Operation}
    (given : item.field? "node" = some (.text operation.name)) :
    operationOf index item = .ok operation := by
  unfold operationOf
  rw [given]
  simp only [Option.getD_some, Operation.ofName?_name]

theorem operationOf_of_unknown
    (unknown : ∀ operation : Operation, item.field? "node" ≠ some (.text operation.name)) :
    operationOf index item =
      .error (Fault.unknownNode index ((item.field? "node").getD .null)).error := by
  unfold operationOf
  cases given : item.field? "node" with
  | none => rfl
  | some value =>
      cases value with
      | text name =>
          cases named : Operation.ofName? name with
          | none =>
              simp only [Option.getD_some, named]
              rfl
          | some operation =>
              cases Operation.name_of_ofName? named
              exact absurd given (unknown operation)
      | _ =>
          simp only [Option.getD_some, Fault.error]
          split <;> simp only [*]

theorem associativityOf_of_name
    {associativity : Associativity}
    (given : item.field? "associativity" = some (.text associativity.name)) :
    associativityOf index item = .ok associativity := by
  unfold associativityOf
  rw [given]
  simp only [Associativity.ofName?_name]

theorem associativityOf_of_none
    (absent : item.field? "associativity" = none) :
    associativityOf index item = .ok .left := by
  unfold associativityOf
  rw [absent]

theorem associativityOf_of_neither
    {value : Datum}
    (given : item.field? "associativity" = some value)
    (neither : ∀ associativity : Associativity, value ≠ .text associativity.name) :
    associativityOf index item = .error (.invalidAssociativity index) := by
  unfold associativityOf
  rw [given]
  cases value with
  | text name =>
      cases named : Associativity.ofName? name with
      | none => simp only [named]
      | some associativity =>
          cases Associativity.name_of_ofName? named
          exact absurd rfl (neither associativity)
  | _ => rfl

/-- The operators that were seen are those of the items before. -/
def Collected (seen : List String) (earlier : List Datum) : Prop :=
  ∀ text, text ∈ seen ↔ ∃ other ∈ earlier, other.field? "operator" = some (.text text)

theorem Collected.not_mem
    (collected : Collected seen earlier)
    (fresh : ∀ other ∈ earlier, other.field? "operator" ≠ some (.text text)) :
    text ∉ seen := by
  intro there
  obtain ⟨other, before, same⟩ := (collected text).mp there
  exact fresh other before same

theorem Collected.cons
    (collected : Collected seen earlier)
    (given : item.field? "operator" = some (.text text)) :
    Collected (text :: seen) (earlier ++ [item]) := by
  intro other
  simp only [List.mem_cons, collected other, List.mem_append, List.not_mem_nil, or_false]
  constructor
  · rintro (rfl | ⟨before, there, same⟩)
    · exact ⟨item, .inr rfl, given⟩
    · exact ⟨before, .inl there, same⟩
  · rintro ⟨before, there | rfl, same⟩
    · exact .inr ⟨before, there, same⟩
    · cases given.symm.trans same
      exact .inl rfl

/-- An item gives a level, or it breaks a rule. -/
theorem gives_or_breaks
    (earlier : List Datum)
    (item : Datum) :
    (∃ level, Gives earlier item level) ∨ ∃ fault, Breaks earlier item fault := by
  by_cases mapping : ∃ entries, item = .mapping entries
  case neg => exact .inr ⟨_, .mapping fun entries same => mapping ⟨entries, same⟩⟩
  obtain ⟨entries, isMapping⟩ := mapping
  by_cases operator : ∃ text, item.field? "operator" = some (.text text) ∧ IsOperator text
  case neg =>
    exact .inr ⟨_, .operator isMapping fun text given is => operator ⟨text, given, is⟩⟩
  obtain ⟨text, given, isText⟩ := operator
  by_cases before : ∃ other ∈ earlier, other.field? "operator" = some (.text text)
  case pos =>
    obtain ⟨other, there, same⟩ := before
    exact .inr ⟨_, .duplicate given isText there same⟩
  have fresh : ∀ other ∈ earlier, other.field? "operator" ≠ some (.text text) :=
    fun other there same => before ⟨other, there, same⟩
  by_cases node : ∃ operation : Operation, item.field? "node" = some (.text operation.name)
  case neg =>
    exact .inr ⟨_, .node given isText fresh fun operation named => node ⟨operation, named⟩⟩
  obtain ⟨operation, named⟩ := node
  cases associativity : item.field? "associativity" with
  | none =>
      exact .inl ⟨⟨text, operation, .left⟩, ⟨entries, isMapping⟩, given, isText, fresh, named,
        .inr ⟨associativity, rfl⟩⟩
  | some value =>
      by_cases either : ∃ associativity : Associativity, value = .text associativity.name
      case neg =>
        exact .inr ⟨_, .associativity given isText fresh named associativity
          fun name same => either ⟨name, same⟩⟩
      obtain ⟨side, rfl⟩ := either
      exact .inl ⟨⟨text, operation, side⟩, ⟨entries, isMapping⟩, given, isText, fresh, named,
        .inl associativity⟩

/-- What is checked of a mapping with a fresh operator: its node, and then its associativity. -/
theorem levelOf_of_fresh
    (collected : Collected seen earlier)
    (given : item.field? "operator" = some (.text text))
    (isText : IsOperator text)
    (fresh : ∀ other ∈ earlier, other.field? "operator" ≠ some (.text text)) :
    levelOf seen index item = do
      let operation ← operationOf index item
      let associativity ← (associativityOf index item).mapError .unfit
      return ⟨text, operation, associativity⟩ := by
  cases item with
  | mapping entries =>
      have notSeen : ¬ seen.contains text = true := by
        simpa using collected.not_mem fresh
      simp only [levelOf, operatorOf_of_isOperator given isText]
      exact if_neg notSeen
  | _ => cases given

/-- The level of an item that gives one. -/
theorem levelOf_of_gives
    (collected : Collected seen earlier)
    (gives : Gives earlier item level) :
    levelOf seen index item = .ok level := by
  rw [levelOf_of_fresh collected gives.operator gives.isOperator gives.fresh,
    operationOf_of_name gives.node]
  rcases gives.associativity with named | ⟨absent, left⟩
  · rw [associativityOf_of_name named]
    rfl
  · rw [associativityOf_of_none absent, ← left]
    rfl

/-- The fault of an item that breaks a rule. -/
theorem levelOf_of_breaks
    (collected : Collected seen earlier)
    (breaks : Breaks earlier item fault) :
    levelOf seen earlier.length item = .error fault.error := by
  cases breaks with
  | mapping other =>
      cases item with
      | mapping entries => exact absurd rfl (other entries)
      | _ => rfl
  | operator isMapping none =>
      subst isMapping
      simp only [levelOf, operatorOf_of_none none]
      rfl
  | duplicate given isText before same =>
      cases item with
      | mapping entries =>
          have isSeen : seen.contains _ = true :=
            List.contains_iff_mem.mpr ((collected _).mpr ⟨_, before, same⟩)
          simp only [levelOf, operatorOf_of_isOperator given isText]
          exact if_pos isSeen
      | _ => cases given
  | node given isText fresh unknown =>
      rw [levelOf_of_fresh collected given isText fresh, operationOf_of_unknown unknown]
      rfl
  | associativity given isText fresh node present neither =>
      rw [levelOf_of_fresh collected given isText fresh, operationOf_of_name node,
        associativityOf_of_neither present neither]
      rfl

/-- An item that gives a level adds it to the levels of the items behind it. -/
theorem levelsFrom_cons
    (collected : Collected seen earlier)
    (gives : Gives earlier item level)
    (items : List Datum) :
    levelsFrom seen earlier.length (item :: items) =
      (levelsFrom (level.operator :: seen) (earlier ++ [item]).length items).map
        (level :: ·) := by
  rw [levelsFrom, levelOf_of_gives collected gives, List.length_append]
  rfl

/-- Items that give levels add these to the levels of the items behind them. -/
theorem levelsFrom_append
    (collected : Collected seen earlier)
    (describes : Describes earlier front levels) :
    ∃ seen', Collected seen' (earlier ++ front) ∧
      ∀ items, levelsFrom seen earlier.length (front ++ items) =
        (levelsFrom seen' (earlier ++ front).length items).map (levels ++ ·) := by
  -- Each item moves to the items before and its operator to those that were seen.
  induction describes generalizing seen with
  | @nil earlier =>
      refine ⟨seen, by simpa using collected, fun items => ?_⟩
      rw [List.append_nil]
      exact (congrFun Except.map_id _).symm
  | @cons earlier rest item level table gives others ih =>
      obtain ⟨seen', collected', behind⟩ := ih (collected.cons gives.operator)
      rw [List.append_assoc] at collected' behind
      refine ⟨seen', collected', fun items => ?_⟩
      calc levelsFrom seen earlier.length (item :: (rest ++ items))
          = (levelsFrom (level.operator :: seen) (earlier ++ [item]).length
              (rest ++ items)).map (level :: ·) := levelsFrom_cons collected gives _
        _ = ((levelsFrom seen' (earlier ++ item :: rest).length items).map
              (table ++ ·)).map (level :: ·) := by rw [behind items]; rfl
        _ = (levelsFrom seen' (earlier ++ item :: rest).length items).map
              (level :: table ++ ·) := by
            cases levelsFrom seen' (earlier ++ item :: rest).length items <;> rfl

/-- All items of a list give levels, or a first one breaks a rule. -/
theorem describes_or_breaks
    (earlier items : List Datum) :
    (∃ table, Describes earlier items table) ∨
      ∃ front item back levels fault, items = front ++ item :: back ∧
        Describes earlier front levels ∧ Breaks (earlier ++ front) item fault := by
  induction items generalizing earlier with
  | nil => exact .inl ⟨[], .nil⟩
  | cons item items ih =>
      rcases gives_or_breaks earlier item with ⟨level, gives⟩ | ⟨fault, breaks⟩
      · rcases ih (earlier ++ [item]) with
          ⟨table, others⟩ | ⟨front, item', back, levels, fault, rfl, before, breaks⟩
        · exact .inl ⟨level :: table, .cons gives others⟩
        · rw [List.append_assoc] at breaks
          exact .inr ⟨item :: front, item', back, level :: levels, fault, rfl,
            .cons gives before, breaks⟩
      · exact .inr ⟨[], item, items, [], fault, rfl, .nil, by simpa using breaks⟩

theorem field?_levels_iff :
    document.field? "levels" = some (.list items) ↔ Lists document items := by
  constructor
  · intro given
    cases document with
    | mapping entries => exact ⟨entries, rfl, given⟩
    | _ => cases given
  · rintro ⟨entries, rfl, given⟩
    exact given

theorem Hashable.of_lists
    (lists : Lists document items)
    (each : ∀ item ∈ items, Hashable item) :
    ∀ others, Lists document others → ∀ item ∈ others, Hashable item := by
  intro others same
  cases (field?_levels_iff.mpr lists).symm.trans (field?_levels_iff.mpr same)
  exact each

theorem ofDocument_of_lists
    (lists : Lists document items) :
    ofDocument document = levelsFrom [] 0 items := by
  unfold ofDocument
  rw [field?_levels_iff.mpr lists]

theorem collected_nil : Collected [] [] := by
  simp [Collected]

/-- The table of a document whose items all give levels. -/
theorem ofDocument_of_describes
    (lists : Lists document items)
    (describes : Describes [] items table) :
    ofDocument document = .ok table := by
  obtain ⟨seen, _, behind⟩ := levelsFrom_append collected_nil describes
  have all := behind []
  simp only [List.append_nil] at all
  rw [ofDocument_of_lists lists]
  exact all.trans (congrArg Except.ok (List.append_nil table))

/-- How a document comes out that has a fault. -/
theorem ofDocument_of_fault
    (unfit : Unfit document fault) :
    ofDocument document = .error fault.error := by
  cases unfit with
  | noLevels none =>
      unfold ofDocument
      split
      · rename_i items given
        exact absurd (field?_levels_iff.mp given) (none items)
      · rfl
  | @item front back item levels _ lists before breaks =>
      obtain ⟨seen, collected, behind⟩ := levelsFrom_append collected_nil before
      have fails := levelOf_of_breaks collected breaks
      calc ofDocument document
          = levelsFrom [] 0 (front ++ item :: back) := ofDocument_of_lists lists
        _ = (levelsFrom seen ([] ++ front).length (item :: back)).map (levels ++ ·) :=
            behind (item :: back)
        _ = .error fault.error := by
            rw [levelsFrom, List.nil_append]
            rw [List.nil_append] at fails
            rw [fails]
            rfl

/-- Where all node classes can be looked up, a fault comes out as it is. -/
theorem error_of_hashable
    (hashable : ∀ items, Lists document items → ∀ item ∈ items, Hashable item)
    (unfit : Unfit document fault) :
    fault.error = .unfit fault := by
  cases unfit with
  | noLevels => rfl
  | @item front back item _ _ lists _ breaks =>
      cases breaks with
      | node =>
          have there : item ∈ front ++ item :: back :=
            List.mem_append_right front List.mem_cons_self
          cases given : item.field? "node" with
          | none => rfl
          | some node =>
              obtain ⟨key, hashed⟩ := hashable _ lists item there node given
              simp only [Option.getD_some, Fault.error, hashed]
      | _ => rfl

/-- The fault of an unfit document. -/
theorem ofDocument_of_unfit
    (hashable : ∀ items, Lists document items → ∀ item ∈ items, Hashable item)
    (unfit : Unfit document fault) :
    ofDocument document = .error (.unfit fault) :=
  (ofDocument_of_fault unfit).trans (congrArg Except.error (error_of_hashable hashable unfit))

/-- Every document is a table or unfit. -/
theorem describes_or_unfit
    (document : Datum) :
    (∃ items table, Lists document items ∧ Describes [] items table) ∨
      ∃ fault, Unfit document fault := by
  by_cases lists : ∃ items, Lists document items
  case neg => exact .inr ⟨_, .noLevels fun items listed => lists ⟨items, listed⟩⟩
  obtain ⟨items, lists⟩ := lists
  rcases describes_or_breaks [] items with
    ⟨table, describes⟩ | ⟨front, item, back, levels, fault, rfl, before, breaks⟩
  · exact .inl ⟨items, table, lists, describes⟩
  · exact .inr ⟨fault, .item lists before breaks⟩

/-- A document is a table exactly if it lists items that give the levels of that table. -/
theorem ofDocument_eq_ok_iff
    (hashable : ∀ items, Lists document items → ∀ item ∈ items, Hashable item) :
    ofDocument document = .ok table ↔
      ∃ items, Lists document items ∧ Describes [] items table := by
  constructor
  · intro accepted
    rcases describes_or_unfit document with ⟨items, other, lists, describes⟩ | ⟨fault, unfit⟩
    · cases accepted.symm.trans (ofDocument_of_describes lists describes)
      exact ⟨items, lists, describes⟩
    · cases accepted.symm.trans (ofDocument_of_unfit hashable unfit)
  · rintro ⟨items, lists, describes⟩
    exact ofDocument_of_describes lists describes

/-- What is not a table is so for its fault, and there is only one. -/
theorem ofDocument_eq_error_iff
    {error : Error}
    (hashable : ∀ items, Lists document items → ∀ item ∈ items, Hashable item) :
    ofDocument document = .error error ↔ ∃ fault, Unfit document fault ∧ error = .unfit fault := by
  constructor
  · intro refused
    rcases describes_or_unfit document with ⟨items, table, lists, describes⟩ | ⟨fault, unfit⟩
    · cases refused.symm.trans (ofDocument_of_describes lists describes)
    · cases refused.symm.trans (ofDocument_of_unfit hashable unfit)
      exact ⟨fault, unfit, rfl⟩
  · rintro ⟨fault, unfit, rfl⟩
    exact ofDocument_of_unfit hashable unfit

end Items
end LevelTable

namespace Arithmetic

open LevelTable

variable {depth : Nat}
variable {location : Location}
variable {document : Datum}

theorem tableOfDocument_eq_error_iff
    {problem : Problem} :
    tableOfDocument depth location document = .error problem ↔
      ∃ error, ofDocument document = .error error ∧ problem = tableProblem depth location error := by
  unfold tableOfDocument
  cases ofDocument document with
  | ok table =>
      constructor
      · nofun
      · rintro ⟨_, ⟨⟩, _⟩
  | error error =>
      constructor
      · rintro ⟨⟩
        exact ⟨error, rfl, rfl⟩
      · rintro ⟨_, ⟨⟩, rfl⟩
        rfl

theorem tableOfDocument_eq_ok_iff
    {table : LevelTable} :
    tableOfDocument depth location document = .ok table ↔ ofDocument document = .ok table := by
  unfold tableOfDocument
  cases ofDocument document with
  | ok table =>
      constructor
      · rintro ⟨⟩
        rfl
      · rintro ⟨⟩
        rfl
  | error error =>
      constructor
      · nofun
      · nofun

theorem tableProblem_unfit_iff
    {fault : LevelTable.Fault}
    {problem : Problem} :
    problem = tableProblem depth location (.unfit fault) ↔
      fault.writeError? depth = none ∧
          problem = .reported ⟨.configuration, some location, fault.message⟩ ∨
        ∃ error, fault.writeError? depth = some error ∧ problem = .breakdown (breakdownOf error) := by
  cases unwritten : fault.writeError? depth <;> simp [tableProblem, unwritten]

/--
A document gives a table exactly if it lists items that give levels, one each and in their
order, and the operators are then distinct. Every other document has a fault: the lack of the
list, or the first rule that is broken by the first item that breaks one. It is reported at the
location, unless the report has to show a value that cannot be written: then the program ends
for the reason why it cannot.
-/
theorem tableOfDocument_outcome
    (depth : Nat)
    (location : Location)
    (document : Datum)
    (hashable : ∀ items, Lists document items → ∀ item ∈ items, Hashable item) :
    (∀ table, tableOfDocument depth location document = .ok table ↔
      ∃ items, Lists document items ∧ Describes [] items table) ∧
    (∀ table, tableOfDocument depth location document = .ok table → table.Distinct) ∧
    (∀ problem, tableOfDocument depth location document = .error problem ↔
      ∃ fault, Unfit document fault ∧
        (fault.writeError? depth = none ∧
            problem = .reported ⟨.configuration, some location, fault.message⟩ ∨
          ∃ error, fault.writeError? depth = some error ∧
            problem = .breakdown (breakdownOf error))) := by
  refine ⟨fun table => ?_, fun table accepted => ?_, fun problem => ?_⟩
  · exact tableOfDocument_eq_ok_iff.trans (ofDocument_eq_ok_iff hashable)
  · exact (ofDocument_ok_inv (tableOfDocument_eq_ok_iff.mp accepted)).2
  · rw [tableOfDocument_eq_error_iff]
    constructor
    · rintro ⟨error, refused, same⟩
      obtain ⟨fault, unfit, rfl⟩ := (ofDocument_eq_error_iff hashable).mp refused
      exact ⟨fault, unfit, tableProblem_unfit_iff.mp same⟩
    · rintro ⟨fault, unfit, wording⟩
      refine ⟨.unfit fault, (ofDocument_eq_error_iff hashable).mpr ⟨fault, unfit, rfl⟩, ?_⟩
      exact tableProblem_unfit_iff.mpr wording

theorem tableOfDocument_outcome_plus :
    let plus : Datum := .mapping [(.text "operator", .text "+"), (.text "node", .text "Addition")]
    let document : Datum := .mapping [(.text "levels", .list [plus, plus])]
    (∀ items, Lists document items → ∀ item ∈ items, Hashable item) ∧
    tableOfDocument 996 (.startOf "table") document =
      .error (.reported ⟨.configuration, some (.startOf "table"),
        "operator + appears in more than one level"⟩) := by
  intro plus document
  have isText : IsOperator "+" := isOperator_iff.mp (by cbv)
  have hashable : ∀ items, Lists document items → ∀ item ∈ items, Hashable item := by
    refine .of_lists ⟨_, rfl, rfl⟩ ?_
    refine List.forall_mem_cons.mpr ⟨?_, List.forall_mem_singleton.mpr ?_⟩
    all_goals
      rintro node ⟨⟩
      exact ⟨_, rfl⟩
  have gives : Gives [] plus ⟨"+", .addition, .left⟩ :=
    ⟨⟨_, rfl⟩, rfl, isText, by simp, rfl, .inr ⟨rfl, rfl⟩⟩
  have lists : Lists document ([plus] ++ [plus]) := ⟨_, rfl, rfl⟩
  have unfit : Unfit document (.duplicateOperator "+") :=
    .item lists (.cons gives .nil) (.duplicate rfl isText List.mem_cons_self rfl)
  exact ⟨hashable, ((tableOfDocument_outcome _ _ _ hashable).2.2 _).mpr
    ⟨_, unfit, .inl ⟨rfl, rfl⟩⟩⟩

/-- A fault about an integer of too many digits is not reported. -/
theorem tableOfDocument_unwritable :
    let huge : Datum := .int (Nat.pow 16 3600 : Nat)
    let item : Datum := .mapping [(.text "operator", huge), (.text "node", .text "Addition")]
    let document : Datum := .mapping [(.text "levels", .list [item])]
    (∀ items, Lists document items → ∀ item ∈ items, Hashable item) ∧
    Unfit document (.invalidOperator 0 huge) ∧
    tableOfDocument 996 (.startOf "table") document =
      .error (.breakdown (.numeral .tooLongToWrite)) := by
  intro huge item document
  refine ⟨?_, ?_, ?_⟩
  · refine .of_lists ⟨_, rfl, rfl⟩ (List.forall_mem_singleton.mpr ?_)
    rintro node ⟨⟩
    exact ⟨_, rfl⟩
  · have lists : Lists document ([] ++ [item]) := ⟨_, rfl, rfl⟩
    refine .item lists .nil (.operator rfl ?_)
    intro text given
    cases given
  · have long : ¬ Nat.pow 16 3600 < Nat.pow 10 Numeral.digitLimit := by decide +kernel
    have unwritten : Fault.writeError? 996 (.invalidOperator 0 huge) = some .tooLong := by
      simp only [Fault.writeError?, huge, Value.writeError?, Numeral.write_of_long long]
      rfl
    calc tableOfDocument 996 (.startOf "table") document
        = .error (tableProblem 996 (.startOf "table") (.unfit (.invalidOperator 0 huge))) := rfl
      _ = .error (.breakdown (.numeral .tooLongToWrite)) := by
          rw [tableProblem, unwritten]
          rfl

/-- An empty list in so many other lists. -/
def nest : Nat → Datum
  | 0 => .list []
  | n + 1 => .list [nest n]

theorem writeError?_nest
    (depth : Nat) :
    (nest depth).writeError? depth = some .tooDeep := by
  induction depth with
  | zero => rfl
  | succ depth ih => rw [nest, Value.writeError?, Value.writeErrorOfItems?, ih, Option.some_or]

/-- However many values may stand in each other, there is a fault that is not reported. -/
theorem exists_tableOfDocument_nesting
    (depth : Nat)
    (location : Location) :
    ∃ document operator, Unfit document (.invalidOperator 0 operator) ∧
      tableOfDocument depth location document = .error (.breakdown .nesting) := by
  let item : Datum := .mapping [(.text "operator", nest depth)]
  let document : Datum := .mapping [(.text "levels", .list [item])]
  have lists : Lists document ([] ++ [item]) := ⟨_, rfl, rfl⟩
  have isList (text : String) (given : item.field? "operator" = some (.text text)) :
      ¬ IsOperator text := by
    cases depth <;> cases given
  refine ⟨document, nest depth, .item lists .nil (.operator rfl isList), ?_⟩
  rw [tableOfDocument, ofDocument_of_fault (.item lists .nil (.operator rfl isList))]
  change Except.error (tableProblem depth location (.unfit (.invalidOperator 0 (nest depth)))) = _
  rw [tableProblem, Fault.writeError?, writeError?_nest]
  rfl

end Arithmetic
end Precedence
