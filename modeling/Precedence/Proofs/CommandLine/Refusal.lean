import Precedence.Proofs.CommandLine.Independence
import Precedence.Proofs.LevelTable.Outcome

/-!
# How unfit level tables are refused

A document that is no level table is refused for its fault: by the check of the document, when
the reader gives it for the content of a file, and when a command line names that file (`Refused`).
The fault is reported as one of the configuration at the place of the table, and a command ends
with this report and the status 1.

What keeps a fault from being reported are three things (`Obstacle`). A node class that is a list
or a mapping cannot be looked up; and where the report shows a value, an integer of too many
digits in it cannot be written, nor can too many values that stand in each other. Then the program
ends without a report (`document_refused`, `tableOfDocument_of_listed_node`).
-/

namespace Precedence

open Arithmetic

namespace LevelTable

/-- The fault cannot be reported, and the program ends for another cause. -/
inductive Obstacle (depth : Nat) : Fault → Breakdown → Prop
  | unhashable
      {index : Nat}
      {node : Datum}
      {kind : String}
      (none : node.hashKey = .error kind) :
      Obstacle depth (.unknownNode index node) (.unhashable kind)
  | node
      {index : Nat}
      {node : Datum}
      {key : HashKey Empty}
      {error : Value.WriteError}
      (hashed : node.hashKey = .ok key)
      (unwritten : node.writeError? depth = some error) :
      Obstacle depth (.unknownNode index node) (breakdownOf error)
  | operator
      {index : Nat}
      {operator : Datum}
      {error : Value.WriteError}
      (unwritten : operator.writeError? depth = some error) :
      Obstacle depth (.invalidOperator index operator) (breakdownOf error)

end LevelTable

open LevelTable

namespace Arithmetic

variable {depth : Nat}
variable {fault : LevelTable.Fault}

theorem tableProblem_of_obstacle
    {cause : Breakdown}
    (obstacle : Obstacle depth fault cause)
    (location : Location) :
    tableProblem depth location fault.error = .breakdown cause := by
  cases obstacle with
  | unhashable none => simp only [Fault.error, none, tableProblem]
  | node hashed unwritten =>
      simp only [Fault.error, hashed, tableProblem, Fault.writeError?, unwritten]
  | operator unwritten => simp only [Fault.error, tableProblem, Fault.writeError?, unwritten]

/-- Without an obstacle a fault is reported. -/
theorem tableProblem_of_free
    (free : ∀ cause, ¬ Obstacle depth fault cause)
    (location : Location) :
    tableProblem depth location fault.error =
      .reported ⟨.configuration, some location, fault.message⟩ := by
  have written : fault.error = .unfit fault ∧ fault.writeError? depth = none := by
    cases fault with
    | invalidOperator index operator =>
        refine ⟨rfl, Option.eq_none_iff_forall_ne_some.mpr fun error unwritten => ?_⟩
        exact free _ (.operator unwritten)
    | unknownNode index node =>
        cases hashed : node.hashKey with
        | error kind => exact absurd (.unhashable hashed) (free _)
        | ok key =>
            refine ⟨by simp only [Fault.error, hashed],
              Option.eq_none_iff_forall_ne_some.mpr fun error unwritten => ?_⟩
            exact free _ (.node hashed unwritten)
    | _ => exact ⟨rfl, rfl⟩
  simp only [written.1, tableProblem, written.2]

variable {document : Datum}

theorem tableOfDocument_of_unfit
    (unfit : Unfit document fault)
    (depth : Nat)
    (location : Location) :
    tableOfDocument depth location document = .error (tableProblem depth location fault.error) :=
  tableOfDocument_eq_error_iff.mpr ⟨fault.error, ofDocument_of_fault unfit, rfl⟩

/-- The table in a file is that of the document which the reader gives for its text. -/
theorem tableOfFile_eq
    {environment : Environment}
    {path text : String}
    (lookedFor : PathFault.ofPath? path = none)
    (opened : environment.openFile path = .ok text)
    (reads : environment.readDocument text = .ok document) :
    tableOfFile environment path =
      tableOfDocument environment.writingDepth (.startOf path) document := by
  simp only [tableOfFile, lookedFor, opened, reads, bind, Except.bind, Except.mapError]

end Arithmetic

namespace CommandLine

variable {environment : Environment}
variable {options : Options}
variable {words : List String}
variable {path : String}

/-- What is written, and how a command ends, where the table has a problem. -/
def conclusionOf : Problem → Transcript × Ending
  | .reported diagnostic => (.ofReport diagnostic.report, .status 1)
  | .breakdown cause => (.empty, .breakdown cause)

theorem run_of_refused
    {problem : Problem}
    (accepted : Options.ofWords words = .ok options)
    (asked : options.table = .file path)
    (refused : tableOfFile environment path = .error problem)
    (input : String) :
    run words environment input = conclusionOf problem := by
  rw [run_eq_session accepted, session, loadTable]
  simp only [asked, refused]
  cases problem <;> rfl

/-- The document has a problem as a table, wherever it comes from. -/
structure Refused (depth : Nat) (document : Datum) (problem : Location → Problem) : Prop where
  check (location : Location) :
    tableOfDocument depth location document = .error (problem location)
  file (environment : Environment) (path text : String) :
    environment.writingDepth = depth → PathFault.ofPath? path = none →
    environment.openFile path = .ok text → environment.readDocument text = .ok document →
    tableOfFile environment path = .error (problem (.startOf path))
  command (environment : Environment) (words : List String) (options : Options)
      (path text input : String) :
    Options.ofWords words = .ok options → options.table = .file path →
    environment.writingDepth = depth → PathFault.ofPath? path = none →
    environment.openFile path = .ok text → environment.readDocument text = .ok document →
    run words environment input = conclusionOf (problem (.startOf path))

theorem Refused.of_unfit
    {depth : Nat}
    {document : Datum}
    {fault : LevelTable.Fault}
    {problem : Location → Problem}
    (unfit : Unfit document fault)
    (same : ∀ location, tableProblem depth location fault.error = problem location) :
    Refused depth document problem := by
  have refused (location : Location) :
      tableOfDocument depth location document = .error (problem location) := by
    rw [tableOfDocument_of_unfit unfit, same]
  have ofFile (environment : Environment) (path text : String)
      (deep : environment.writingDepth = depth) (lookedFor : PathFault.ofPath? path = none)
      (opened : environment.openFile path = .ok text)
      (reads : environment.readDocument text = .ok document) :
      tableOfFile environment path = .error (problem (.startOf path)) := by
    rw [tableOfFile_eq lookedFor opened reads, deep, refused]
  refine ⟨refused, ofFile, ?_⟩
  intro environment words options path text input accepted asked deep lookedFor opened reads
  exact run_of_refused accepted asked (ofFile environment path text deep lookedFor opened reads)
    input

/--
Every document is a level table, or it has a fault for which it is refused, wherever it comes
from: with a report of the fault at the place of the table, unless there is an obstacle to it,
which then ends the program.
-/
theorem document_refused
    (depth : Nat)
    (document : Datum) :
    (∃ items table, Lists document items ∧ Describes [] items table ∧
      ∀ location, tableOfDocument depth location document = .ok table) ∨
    ∃ fault, Unfit document fault ∧
      ((∀ cause, ¬ Obstacle depth fault cause) →
        Refused depth document fun location =>
          .reported ⟨.configuration, some location, fault.message⟩) ∧
      ∀ cause, Obstacle depth fault cause → Refused depth document fun _ => .breakdown cause := by
  rcases describes_or_unfit document with ⟨items, table, lists, describes⟩ | ⟨fault, unfit⟩
  · refine .inl ⟨items, table, lists, describes, fun location => ?_⟩
    exact tableOfDocument_eq_ok_iff.mpr (ofDocument_of_describes lists describes)
  · refine .inr ⟨fault, unfit, fun free => ?_, fun cause obstacle => ?_⟩
    · exact .of_unfit unfit (tableProblem_of_free free)
    · exact .of_unfit unfit (tableProblem_of_obstacle obstacle)

/-- An operator in a list is reported by a command that names the file of the table. -/
theorem document_refused_nested :
    let operator : Datum := .list [.list [.bool true], .null]
    let item : Datum := .mapping [(.text "operator", operator), (.text "node", .text "Addition")]
    let document : Datum := .mapping [(.text "levels", .list [item])]
    let text := "levels:\n  - operator: [[true], null]\n    node: Addition\n"
    let environment : Environment := ⟨fun _ => .ok text, fun _ => .ok document, 996⟩
    run ["--levels", "table", "1 + 2"] environment "" =
      (.ofReport "table:1.1-1.1: configuration error: level 0: invalid operator: [[True], None]",
        .status 1) := by
  intro operator item document text environment
  have lookedFor : PathFault.ofPath? "table" = none := by
    cbv
  have accepted : Options.ofWords ["--levels", "table", "1 + 2"] =
      .ok ⟨["1 + 2"], false, .file "table", false⟩ := by
    cbv
  have noText (name : String) : item.field? "operator" ≠ some (.text name) := by
    rintro ⟨⟩
  have only (items : List Datum) (lists : Lists document items) : items = [item] := by
    have given := field?_levels_iff.mpr lists
    cases given
    rfl
  rcases document_refused 996 document with
    ⟨items, table, lists, describes, _⟩ | ⟨fault, unfit, reported, _⟩
  · rw [only items lists] at describes
    cases describes with
    | cons gives => exact absurd gives.operator (noText _)
  · have isFault : fault = .invalidOperator 0 operator := by
      cases unfit with
      | noLevels none => exact absurd ⟨_, rfl, rfl⟩ (none [item])
      | item lists before breaks =>
          obtain ⟨rfl, ⟨⟩⟩ | ⟨_, ⟨⟩⟩ := List.append_eq_singleton_iff.mp (only _ lists)
          cases breaks with
          | mapping other => exact absurd rfl (other _)
          | operator => rfl
          | duplicate given => exact absurd given (noText _)
          | node given => exact absurd given (noText _)
          | associativity given => exact absurd given (noText _)
    subst isFault
    have free (cause : Breakdown) : ¬ Obstacle 996 (.invalidOperator 0 operator) cause := by
      intro obstacle
      cases obstacle with
      | operator unwritten => cases unwritten
    have report : Diagnostic.report ⟨.configuration, some (.startOf "table"),
        LevelTable.Fault.message (.invalidOperator 0 operator)⟩ =
        "table:1.1-1.1: configuration error: level 0: invalid operator: [[True], None]" := by
      decide +kernel
    rw [← report]
    exact (reported free).command environment _ _ "table" text "" accepted rfl rfl lookedFor rfl rfl

end CommandLine

namespace Arithmetic

/-- The name of a node class in a list cannot be looked up, and there is no report. -/
theorem tableOfDocument_of_listed_node :
    let node : Datum := .list [.text "Addition"]
    let item : Datum := .mapping [(.text "operator", .text "+"), (.text "node", node)]
    let document : Datum := .mapping [(.text "levels", .list [item])]
    Unfit document (.unknownNode 0 node) ∧
    tableOfDocument 996 (.startOf "table") document = .error (.breakdown (.unhashable "list")) := by
  intro node item document
  have isText : IsOperator "+" := isOperator_iff.mp (by cbv)
  have lists : Lists document ([] ++ [item]) := ⟨_, rfl, rfl⟩
  have unknown (operation : Operation) : item.field? "node" ≠ some (.text operation.name) := by
    rintro ⟨⟩
  have unfit : Unfit document (.unknownNode 0 node) :=
    .item lists .nil (.node rfl isText (by simp) unknown)
  exact ⟨unfit, tableOfDocument_of_unfit unfit _ _⟩

end Arithmetic
end Precedence
