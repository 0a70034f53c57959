import Precedence.Proofs.Arithmetic.Renaming
import Precedence.Proofs.CommandLine.Session

/-!
# The names of sources

The name of a source is written where it is reported on and, if steps are logged, where it is
going to be parsed, and nowhere else. So the standard output does not depend on it, nor does the
outcome, and what is on the standard error stream is a text with gaps, in which the name is
filled in (`perform_filledIn`). The same holds of many sources, each with gaps of its own
(`performAll_filledIn`).
-/

namespace Precedence
namespace CommandLine

/-- A text in which some pieces are missing. -/
abbrev Template := List (Option String)

/-- The text of a template, with the same piece in all gaps. -/
def Template.fill (template : Template) (name : String) : String :=
  String.join (template.map fun piece => piece.getD name)

theorem Template.fill_append
    (first second : Template)
    (name : String) :
    fill (first ++ second) name = fill first name ++ fill second name := by
  rw [fill, List.map_append, String.join_append]
  rfl

/-- What is written depends on a name only in that it is filled in on the error stream. -/
def FilledIn (written : String → Transcript) : Prop :=
  ∃ output, ∃ template : Template, ∀ name, written name = ⟨output, template.fill name⟩

namespace FilledIn

variable {written written' : String → Transcript}

theorem constant
    (transcript : Transcript) :
    FilledIn fun _ => transcript :=
  ⟨transcript.output, [some transcript.errors], fun name => by simp [Template.fill]⟩

theorem append
    (first : FilledIn written)
    (second : FilledIn written') :
    FilledIn fun name => written name ++ written' name := by
  obtain ⟨output, template, same⟩ := first
  obtain ⟨output', template', same'⟩ := second
  refine ⟨output ++ output', template ++ template', fun name => ?_⟩
  dsimp only
  rw [same, same', Template.fill_append]
  rfl

/-- A line in which the name stands between two texts. -/
theorem line
    {text : String → String}
    (front back : String)
    (between : ∀ name, text name = front ++ name ++ back) :
    FilledIn fun name => .ofReport (text name) := by
  refine ⟨"", [some front, none, some back, some "\n"], fun name => ?_⟩
  simp [Template.fill, Transcript.ofReport, Transcript.ofErrors, between, String.append_assoc]

/-- A report begins with the name of the file that it is about. -/
theorem report
    (kind : Diagnostic.Kind)
    (start stop : Position)
    (message : String) :
    FilledIn fun name =>
      .ofReport (Diagnostic.report ⟨kind, some (.ofPositions name start stop), message⟩) := by
  refine line "" (Diagnostic.report ⟨kind, some (.ofPositions "" start stop), message⟩) fun name => ?_
  simp [Diagnostic.report, Diagnostic.place, Location.render, Location.ofPositions,
    String.append_assoc]

/-- Where steps are logged, the name is mentioned when the source is going to be parsed. -/
theorem parsing
    (options : Options)
    (text : String) :
    FilledIn fun name => Log.write options (Log.parsing ⟨name, text⟩) := by
  unfold Log.write
  cases options.isVerbose with
  | false =>
      simp only [Bool.false_eq_true, if_false]
      exact constant .empty
  | true =>
      simp only [if_true]
      refine line "levels.calculator: parsing " "" fun name => ?_
      dsimp only [Log.parsing]
      rw [String.append_empty]

end FilledIn

/-- Outcomes under all names that are the same but for the name. -/
theorem outcome_of_renamed
    {α : Type}
    (outcome : String → Except Problem α)
    (same : ∀ name,
      Parallel (Problem.Corresponds (Location.Renamed "" name)) Eq (outcome "") (outcome name)) :
    (∃ value, ∀ name, outcome name = .ok value) ∨
    (∃ kind start stop message, ∀ name,
      outcome name = .error (.reported ⟨kind, some (.ofPositions name start stop), message⟩)) ∨
    ∃ cause, ∀ name, outcome name = .error (.breakdown cause) := by
  cases unnamed : outcome "" with
  | ok value =>
      refine .inl ⟨value, fun name => ?_⟩
      obtain ⟨_, named, rfl⟩ := (same name).ok_inv unnamed
      exact named
  | error problem =>
      have renamed (name : String) := (same name).error_inv unnamed
      cases problem with
      | breakdown cause =>
          refine .inr (.inr ⟨cause, fun name => ?_⟩)
          obtain ⟨_, named, ⟨⟩⟩ := renamed name
          exact named
      | reported diagnostic =>
          -- Even the report without a name tells where in a file it is.
          obtain ⟨_, _, related⟩ := renamed ""
          cases related with
          | reported kind located message =>
              cases located with
              | ofPositions start stop =>
                  refine .inr (.inl ⟨kind, start, stop, message, fun name => ?_⟩)
                  obtain ⟨_, named, related⟩ := renamed name
                  cases related with
                  | reported _ located _ =>
                      cases located
                      exact named

open Arithmetic

/-- An answer is made of what the tree says, wherever it was read. -/
theorem answer_corresponds
    {spots : Location → Location → Prop}
    {tree tree' : Node}
    (options : Options)
    (same : tree.Corresponds spots tree') :
    Parallel (Problem.Corresponds spots) Eq (answer options tree) (answer options tree') := by
  unfold answer
  cases options.evaluates with
  | false => exact .ok same.render_eq
  | true =>
      refine (evaluate_corresponds same).bind fun {value _} equal => ?_
      cases equal
      cases Numeral.write value with
      | ok digits => exact .ok rfl
      | error error => exact .error (.breakdown _)

/-- Processing a source is a matter of its text. -/
theorem process_renamed
    (options : Options)
    (table : LevelTable)
    (name name' text : String) :
    Parallel (Problem.Corresponds (Location.Renamed name name')) Eq
      (process options table ⟨name, text⟩).2 (process options table ⟨name', text⟩).2 := by
  unfold process
  have lexed := tokens_renamed name name' (Text.strip text)
  dsimp only
  generalize tokens name (Text.strip text) = x, tokens name' (Text.strip text) = x' at lexed
  cases lexed with
  | error related => exact .error related
  | ok same => exact (parse_renamed table same).bind fun tree => answer_corresponds options tree

/-- What is logged for a source mentions its name, or nothing at all. -/
theorem process_filledIn
    (options : Options)
    (table : LevelTable)
    (text : String) :
    FilledIn fun name => (process options table ⟨name, text⟩).1 := by
  have logged (name : String) : (process options table ⟨name, text⟩).1 =
      Log.write options (Log.parsing ⟨name, text⟩) ++
        if (tokens "" (Text.strip text)).isOk then Log.write options (Log.composed table)
        else .empty := by
    rw [(tokens_renamed "" name (Text.strip text)).isOk_eq]
    unfold process
    cases tokens name (Text.strip text) with
    | error problem => exact (Transcript.append_empty _).symm
    | ok tokens => rfl
  simp only [logged]
  exact (FilledIn.parsing options text).append (.constant _)

/-- What is written for a source, by what processing it has come to. -/
theorem perform_of_process
    (options : Options)
    (table : LevelTable)
    (source : Source) :
    perform options table source =
      match (process options table source).2 with
      | .ok text => ((process options table source).1 ++ .ofOutput text, .ok true)
      | .error (.reported diagnostic) =>
          ((process options table source).1 ++ .ofReport diagnostic.report, .ok false)
      | .error (.breakdown cause) => ((process options table source).1, .error cause) := by
  unfold perform
  generalize process options table source = processed
  obtain ⟨log, outcome⟩ := processed
  cases outcome with
  | ok answer => rfl
  | error problem => cases problem <;> rfl

/-- What is written for a text does not depend on its name but where it is mentioned. -/
theorem perform_filledIn
    (options : Options)
    (table : LevelTable)
    (text : String) :
    (FilledIn fun name => (perform options table ⟨name, text⟩).1) ∧
      ∃ outcome, ∀ name, (perform options table ⟨name, text⟩).2 = outcome := by
  have log := process_filledIn options table text
  simp only [perform_of_process]
  rcases outcome_of_renamed (fun name => (process options table ⟨name, text⟩).2)
      (process_renamed options table "" · text) with
    ⟨answer, same⟩ | ⟨kind, start, stop, message, same⟩ | ⟨cause, same⟩
  · simp only [same]
    exact ⟨log.append (.constant _), _, fun _ => rfl⟩
  · simp only [same]
    exact ⟨log.append (.report kind start stop message), _, fun _ => rfl⟩
  · simp only [same]
    exact ⟨log, _, fun _ => rfl⟩

/-- What is written for texts does not depend on their names but where these are mentioned. -/
theorem performAll_filledIn
    (options : Options)
    (table : LevelTable)
    (texts : List String) :
    ∃ output outcome, ∃ templates : List Template,
      ∀ sources : List Source, sources.map Source.text = texts →
        performAll options table sources =
          (⟨output, .join (List.zipWith Template.fill templates (sources.map Source.name))⟩,
            outcome) := by
  induction texts with
  | nil =>
      refine ⟨"", .ok true, [], fun sources same => ?_⟩
      obtain rfl := List.map_eq_nil_iff.mp same
      rfl
  | cons text texts ih =>
      obtain ⟨⟨output, template, written⟩, outcome, performed⟩ := perform_filledIn options table text
      obtain ⟨outputs, outcomes, templates, ih⟩ := ih
      have first (source : Source) (same : source.text = text) :
          perform options table source = (⟨output, template.fill source.name⟩, outcome) := by
        cases same
        exact Prod.ext (written source.name) (performed source.name)
      cases outcome with
      | error cause =>
          refine ⟨output, .error cause, [template], fun sources same => ?_⟩
          obtain ⟨source, sources, rfl, isText, areTexts⟩ := List.map_eq_cons_iff.mp same
          rw [performAll, first source isText, List.map_cons, List.zipWith_cons_cons,
            List.zipWith_nil_left, String.join_cons, String.join_nil, String.append_empty]
      | ok isAnswered =>
          refine ⟨output ++ outputs, outcomes.map (isAnswered && ·), template :: templates,
            fun sources same => ?_⟩
          obtain ⟨source, sources, rfl, isText, areTexts⟩ := List.map_eq_cons_iff.mp same
          rw [performAll, first source isText, ih sources areTexts, List.map_cons,
            List.zipWith_cons_cons, String.join_cons]
          rfl

end CommandLine
end Precedence
