import Precedence.Proofs.CommandLine.Arguments
import Precedence.Proofs.CommandLine.Naming
import Precedence.Proofs.Text.Lines

/-!
# Expressions do not influence each other

A session writes what its expressions write on their own, one after the other, and its status
tells whether all of them have been answered. Moreover it does not matter how the expressions are
given. Lines of the standard input are processed as the same texts on the command line are, but
for their names, where blank lines are counted and left out (`run_independent`).
-/

namespace Precedence
namespace CommandLine

/-- What is written for a source that is the only one of a session, and the ending. -/
def Source.alone (options : Options) (table : LevelTable) (source : Source) : Transcript × Ending :=
  let (written, outcome) := performAll options table [source]
  (written, .ofOutcome outcome)

/-- Texts that differ only in the names that are filled in. -/
def SameButFor (names names' : List String) (text text' : String) : Prop :=
  ∃ common : String, ∃ templates : List Template,
    text = common ++ .join (List.zipWith Template.fill templates names) ∧
    text' = common ++ .join (List.zipWith Template.fill templates names')

section Alone

variable {options : Options}
variable {table : LevelTable}
variable {sources : List Source}

theorem alone_eq
    (options : Options)
    (table : LevelTable)
    (source : Source) :
    source.alone options table =
      ((perform options table source).1, .ofOutcome (perform options table source).2) := by
  unfold Source.alone performAll
  generalize perform options table source = performed
  obtain ⟨written, outcome⟩ := performed
  cases outcome with
  | error cause => rfl
  | ok isAnswered =>
      simp only [performAll, Transcript.append_empty]
      cases isAnswered <;> rfl

/-- A session without a breakdown writes what its sources write, and answers if all of them do. -/
theorem performAll_alone
    {isAnswered : Bool}
    (ends : (performAll options table sources).2 = .ok isAnswered) :
    (performAll options table sources).1 =
        .join (sources.map fun source => (source.alone options table).1) ∧
      (isAnswered = false ↔
        ∃ source ∈ sources, (source.alone options table).2 = .status 1) := by
  induction sources generalizing isAnswered with
  | nil =>
      cases ends
      exact ⟨rfl, by simp⟩
  | cons source sources ih =>
      have alone := alone_eq options table source
      rw [performAll] at ends ⊢
      generalize perform options table source = performed at alone ends ⊢
      obtain ⟨written, outcome⟩ := performed
      cases outcome with
      | error cause => cases ends
      | ok isFirst =>
          dsimp only at ends
          cases endsRest : (performAll options table sources).2 with
          | error cause =>
              rw [endsRest] at ends
              cases ends
          | ok isRest =>
              rw [endsRest] at ends
              cases ends
              obtain ⟨joined, answers⟩ := ih endsRest
              rw [List.map_cons, Transcript.join, List.exists_mem_cons_iff, ← answers, alone,
                ← joined]
              refine ⟨rfl, ?_⟩
              cases isFirst <;> simp [Ending.ofOutcome]

end Alone

section Options

variable {options : Options}
variable {environment : Environment}
variable {log : Transcript}
variable {table : LevelTable}

theorem run_eq_session
    {words : List String}
    (accepted : Options.ofWords words = .ok options)
    (environment : Environment)
    (input : String) :
    run words environment input = session options environment input := by
  rw [run, accepted]

theorem session_of_loaded
    (loaded : loadTable options environment = .ok (log, table))
    (input : String) :
    session options environment input =
      (log ++ (performAll options table (Source.ofOptions options input)).1,
        .ofOutcome (performAll options table (Source.ofOptions options input)).2) := by
  rw [session, loaded]

/-- Nothing is logged about a table where logging is not asked for. -/
theorem log_of_loaded
    (loaded : loadTable options environment = .ok (log, table))
    (quiet : options.isVerbose = false) :
    log = .empty := by
  unfold loadTable Log.write at loaded
  simp only [quiet, Bool.false_eq_true, if_false] at loaded
  repeat' split at loaded
  all_goals cases loaded
  all_goals rfl

/-- Which expressions there are makes no difference to how they are processed. -/
theorem performAll_expressions
    (expressions : List String)
    (sources : List Source) :
    performAll { options with expressions := expressions } table sources =
      performAll options table sources := by
  induction sources with
  | nil => rfl
  | cons source sources ih =>
      rw [performAll, performAll, ih]
      rfl

end Options

namespace Source

/-- The names of the lines that are not blank; all lines are counted, from 1 on. -/
def lineNames (lines : List String) : List String :=
  ((lines.zipIdx 1).filter fun entry => !Text.allBlank entry.1).map fun entry =>
    "<line" ++ toString entry.2 ++ ">"

/-- The names of so many arguments, counted from 0 on. -/
def argumentNames (count : Nat) : List String :=
  (List.range count).map fun place => "<arg" ++ toString place ++ ">"

theorem ofLines_eq
    (count : Nat)
    (lines : List String) :
    (ofLines count lines).map text = lines.filter (!Text.allBlank ·) ∧
      (ofLines count lines).map name =
        ((lines.zipIdx count).filter fun entry => !Text.allBlank entry.1).map fun entry =>
          "<line" ++ toString entry.2 ++ ">" := by
  induction lines generalizing count with
  | nil => exact ⟨rfl, rfl⟩
  | cons line lines ih =>
      obtain ⟨texts, names⟩ := ih (count + 1)
      rw [ofLines, List.zipIdx_cons]
      cases blank : Text.allBlank line with
      | true => simp [blank, texts, names]
      | false => simp [blank, texts, names]

/-- Blank lines at the end are no sources. -/
theorem ofLines_append
    {behind : List String}
    (blank : ∀ line ∈ behind, Text.allBlank line = true)
    (count : Nat)
    (lines : List String) :
    ofLines count (lines ++ behind) = ofLines count lines := by
  induction lines generalizing count with
  | cons line lines ih => rw [List.cons_append, ofLines, ih, ofLines]
  | nil =>
      have none := (ofLines_eq count behind).1
      rw [List.filter_eq_nil_iff.mpr (by simpa using blank)] at none
      exact List.map_eq_nil_iff.mp none

theorem ofArguments_eq
    (count : Nat)
    (arguments : List String) :
    (ofArguments count arguments).map text = arguments ∧
      (ofArguments count arguments).map name =
        (List.range' count arguments.length).map fun place => "<arg" ++ toString place ++ ">" := by
  induction arguments generalizing count with
  | nil => exact ⟨rfl, rfl⟩
  | cons argument arguments ih =>
      obtain ⟨texts, names⟩ := ih (count + 1)
      rw [ofArguments, List.map_cons, List.map_cons, texts, names, List.length_cons, List.range'_succ]
      exact ⟨rfl, rfl⟩

variable {options : Options}
variable {lines arguments : List String}
variable {input : String}

/-- Where no expression is given, the sources are the lines that are not blank. -/
theorem ofOptions_of_lines
    (none : options.expressions = [])
    (whole : ∀ line ∈ lines, '\n' ∉ line.toList)
    (written : input = "\n".intercalate lines ∨ input = String.join (lines.map (· ++ "\n"))) :
    (ofOptions options input).map text = lines.filter (!Text.allBlank ·) ∧
      (ofOptions options input).map name = lineNames lines := by
  obtain ⟨behind, cut, empty⟩ := Text.splitOn_lines whole written
  have blank : ∀ line ∈ behind, Text.allBlank line = true := by
    intro line there
    rw [empty line there]
    rfl
  rw [ofOptions, none, List.isEmpty_nil, if_pos rfl, cut, ofLines_append blank]
  exact ofLines_eq 1 lines

/-- The sources are the expressions if there are some, and no input is asked for. -/
theorem ofOptions_of_arguments
    (given : options.expressions = arguments)
    (blank : arguments = [] → Text.allBlank input = true) :
    (ofOptions options input).map text = arguments ∧
      (ofOptions options input).map name = argumentNames arguments.length := by
  rw [ofOptions, given]
  cases arguments with
  | nil =>
      rw [List.isEmpty_nil, if_pos rfl]
      have lines : ∀ line ∈ input.splitOn "\n", Text.allBlank line = true :=
        fun line there => Text.allBlank_of_mem_splitOn (blank rfl) there
      have none := ofLines_append lines 1 []
      rw [List.nil_append] at none
      rw [none]
      exact ⟨rfl, rfl⟩
  | cons argument arguments =>
      rw [List.isEmpty_cons, if_neg Bool.false_ne_true, argumentNames, List.range_eq_range']
      exact ofArguments_eq 0 (argument :: arguments)

end Source

section Session

variable {options : Options}
variable {environment : Environment}
variable {input : String}

/-- A session without a breakdown writes what its sources write when each is the only one. -/
theorem session_alone
    {log : Transcript}
    {table : LevelTable}
    (loaded : loadTable options environment = .ok (log, table))
    (calm : ∀ cause, (session options environment input).2 ≠ .breakdown cause) :
    (session options environment input).1 =
        log ++ .join ((Source.ofOptions options input).map fun source =>
          (source.alone options table).1) ∧
      ∃ code,
        (session options environment input).2 = .status code ∧ code ≤ 1 ∧
        (code = 1 ↔ ∃ source ∈ Source.ofOptions options input,
          (source.alone options table).2 = .status 1) := by
  rw [session_of_loaded loaded] at calm ⊢
  cases ends : (performAll options table (Source.ofOptions options input)).2 with
  | error cause =>
      rw [ends] at calm
      exact absurd rfl (calm cause)
  | ok isAnswered =>
      obtain ⟨joined, answers⟩ := performAll_alone ends
      rw [joined, ← answers]
      refine ⟨rfl, if isAnswered then 0 else 1, rfl, ?_⟩
      cases isAnswered <;> simp

/-- Sessions over the same texts are the same but for the names of the texts. -/
theorem session_renamed
    {arguments names names' : List String}
    {other : String}
    (sources : (Source.ofOptions options input).map Source.text = arguments ∧
      (Source.ofOptions options input).map Source.name = names)
    (sources' : (Source.ofOptions { options with expressions := arguments } other).map Source.text =
        arguments ∧
      (Source.ofOptions { options with expressions := arguments } other).map Source.name = names') :
    let ended := session options environment input
    let ended' := session { options with expressions := arguments } environment other
    ended.1.output = ended'.1.output ∧ ended.2 = ended'.2 ∧
      SameButFor names names' ended.1.errors ended'.1.errors := by
  intro ended ended'
  cases loads : loadTable options environment with
  | error early =>
      have unloaded : ended = early := by
        simp only [ended, session, loads]
      have unloaded' : ended' = early := by
        have loads' :
            loadTable { options with expressions := arguments } environment = .error early :=
          loads
        simp only [ended', session, loads']
      rw [unloaded, unloaded']
      exact ⟨rfl, rfl, early.1.errors, [], by simp, by simp⟩
  | ok loaded =>
      obtain ⟨log, table⟩ := loaded
      have loads' :
          loadTable { options with expressions := arguments } environment = .ok (log, table) :=
        loads
      obtain ⟨output, outcome, templates, performs⟩ := performAll_filledIn options table arguments
      have performed := performs _ sources.1
      have performed' := (performAll_expressions arguments _).trans (performs _ sources'.1)
      rw [sources.2] at performed
      rw [sources'.2] at performed'
      rw [show ended = _ from session_of_loaded loads input, performed,
        show ended' = _ from session_of_loaded loads' other, performed']
      exact ⟨rfl, rfl, log.errors, templates, rfl, rfl⟩

end Session

end CommandLine
end Precedence
