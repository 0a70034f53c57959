import Precedence.Proofs.CommandLine.Reply

/-!
# Sessions reply to every expression

With the default table a session replies to its expressions in order and comes to its end,
whatever was wrong with some of them, unless a number has too many digits (`performAll_ends`).
Such a number ends the session, and expressions behind it get no reply (`run_of_tooLong`).
-/

namespace Precedence
namespace CommandLine

namespace Transcript

theorem empty_append
    (transcript : Transcript) :
    .empty ++ transcript = transcript := by
  change mk ("" ++ transcript.output) ("" ++ transcript.errors) = transcript
  rw [String.empty_append, String.empty_append]

theorem append_empty
    (transcript : Transcript) :
    transcript ++ .empty = transcript := by
  change mk (transcript.output ++ "") (transcript.errors ++ "") = transcript
  rw [String.append_empty, String.append_empty]

theorem append_assoc
    (first second third : Transcript) :
    first ++ second ++ third = first ++ (second ++ third) := by
  change mk (first.output ++ second.output ++ third.output)
      (first.errors ++ second.errors ++ third.errors) =
    mk (first.output ++ (second.output ++ third.output))
      (first.errors ++ (second.errors ++ third.errors))
  rw [String.append_assoc, String.append_assoc]

/-- What the parts of a session write, one after the other. -/
def join : List Transcript → Transcript
  | [] => .empty
  | first :: rest => first ++ join rest

end Transcript

namespace Source

/-- Counted names are those of sources, unless the unknown location has one of their kind. -/
theorem named_of_counted
    {kind : String}
    (oneLine : OneLine kind)
    (other : ¬ kind.toList <+: Location.unknownName.toList)
    (count : Nat)
    (text : String) :
    Named ⟨kind ++ toString count ++ ">", text⟩ := by
  refine ⟨(oneLine.append (.natural count)).append (by decide), fun same => other ?_⟩
  rw [← same, String.append_assoc, String.toList_append]
  exact List.prefix_append _ _

theorem named_ofArguments
    (count : Nat)
    (texts : List String) :
    ∀ source ∈ ofArguments count texts, source.Named := by
  induction texts generalizing count with
  | nil => simp [ofArguments]
  | cons text texts ih =>
      have named := named_of_counted (by decide : OneLine "<arg") (by decide) count text
      exact List.forall_mem_cons.mpr ⟨named, ih (count + 1)⟩

theorem named_ofLines
    (count : Nat)
    (lines : List String) :
    ∀ source ∈ ofLines count lines, source.Named := by
  induction lines generalizing count with
  | nil => simp [ofLines]
  | cons line lines ih =>
      unfold ofLines
      split
      · exact ih (count + 1)
      have named := named_of_counted (by decide : OneLine "<line") (by decide) count line
      exact List.forall_mem_cons.mpr ⟨named, ih (count + 1)⟩

theorem named_ofOptions
    (options : Options)
    (input : String) :
    ∀ source ∈ ofOptions options input, source.Named := by
  unfold ofOptions
  split
  · exact named_ofLines 1 _
  · exact named_ofArguments 0 _

end Source

/-- Sources get their replies in order, up to one with a number that has too many digits. -/
theorem performAll_ends
    {sources : List Source}
    (options : Options)
    (named : ∀ source ∈ sources, source.Named) :
    (∃ replies,
      List.Forall₂ (Reply options) sources replies ∧
      performAll options LevelTable.default sources =
        (.join (replies.map Prod.fst), .ok (replies.all Prod.snd))) ∨
    ∃ front source back replies error,
      sources = front ++ source :: back ∧
      List.Forall₂ (Reply options) front replies ∧ Exceeds options source error ∧
      performAll options LevelTable.default sources =
        (.join (replies.map Prod.fst) ++ source.log options, .error (.numeral error)) := by
  induction sources with
  | nil => exact .inl ⟨[], .nil, rfl⟩
  | cons source sources ih =>
      obtain ⟨first, others⟩ := List.forall_mem_cons.mp named
      rcases perform_ends options first with
        ⟨written, isAnswered, reply, performed⟩ | ⟨error, exceeds, performed⟩
      · rcases ih others with
          ⟨replies, replied, ends⟩ |
          ⟨front, last, back, replies, error, rfl, replied, exceeds, ends⟩
        · refine .inl ⟨(written, isAnswered) :: replies, .cons reply replied, ?_⟩
          rw [performAll, performed, ends]
          rfl
        · refine .inr ⟨source :: front, last, back, (written, isAnswered) :: replies, error, rfl,
            .cons reply replied, exceeds, ?_⟩
          rw [performAll, performed, ends, List.map_cons, Transcript.join, Transcript.append_assoc]
          rfl
      · refine .inr ⟨[], source, sources, [], error, rfl, .nil, exceeds, ?_⟩
        rw [performAll, performed, List.map_nil, Transcript.join, Transcript.empty_append]

section Plain

variable {word : String}
variable {words : List String}

theorem classify_of_plain
    (plain : word.toList.head? ≠ some '-') :
    Word.classify word = .ok (.argument word) := by
  unfold Word.classify
  split
  · rename_i dashed
    rw [dashed] at plain
    exact absurd rfl plain
  · rfl

theorem classifyAll_of_plain
    (plain : ∀ word ∈ words, word.toList.head? ≠ some '-') :
    Word.classifyAll words = .ok (words.map .argument) := by
  induction words with
  | nil => rfl
  | cons word words ih =>
      obtain ⟨first, others⟩ := List.forall_mem_cons.mp plain
      have other : word ≠ Word.separatorText := by
        rintro rfl
        exact first (by decide)
      rw [Word.classifyAll, if_neg other, classify_of_plain first, ih others]
      rfl

theorem readFrom_arguments
    {stage : Options.Stage}
    {options : Options}
    (notBehind : stage ≠ .behind) :
    Options.readFrom stage options [] (words.map .argument) =
      .ok { options with expressions := options.expressions ++ words } := by
  induction words generalizing stage options with
  | nil => simp [Options.readFrom, Options.finish]
  | cons word words ih =>
      rw [List.map_cons, Options.readFrom, if_neg notBehind, ih (by decide)]
      simp

/-- Words that do not begin with a dash are expressions, and nothing else is asked for. -/
theorem ofWords_of_plain
    (plain : ∀ word ∈ words, word.toList.head? ≠ some '-') :
    Options.ofWords words = .ok ⟨words, false, .standard, false⟩ := by
  rw [Options.ofWords, classifyAll_of_plain plain]
  exact readFrom_arguments (by decide)

end Plain

theorem run_of_accepted
    {words : List String}
    {options : Options}
    (accepted : Options.ofWords words = .ok options)
    (standard : options.table = .standard)
    (environment : Environment)
    (input : String) :
    run words environment input =
      let ends := performAll options LevelTable.default (Source.ofOptions options input)
      (ends.1, .ofOutcome ends.2) := by
  unfold run session loadTable
  simp only [accepted, standard, Transcript.empty_append]

/-- An expression of too many digits ends the session, whatever words are behind it. -/
theorem run_of_tooLong
    {chars : List Char}
    {words : List String}
    (digits : ∀ c ∈ chars, c.isDigit = true)
    (long : Numeral.digitLimit < chars.length)
    (plain : ∀ word ∈ words, word.toList.head? ≠ some '-')
    (environment : Environment)
    (input : String) :
    run (String.ofList chars :: words) environment input =
      (.empty, .breakdown (.numeral (.tooLongToRead chars.length))) := by
  have first : (String.ofList chars).toList.head? ≠ some '-' := by
    rw [String.toList_ofList]
    intro begins
    cases digits _ (List.mem_of_mem_head? begins)
  have accepted := ofWords_of_plain (List.forall_mem_cons.mpr ⟨first, plain⟩)
  have ends : performAll ⟨String.ofList chars :: words, false, .standard, false⟩
      LevelTable.default (Source.ofArguments 0 (String.ofList chars :: words)) =
      (.empty, .error (.numeral (.tooLongToRead chars.length))) := by
    rw [Source.ofArguments, performAll, perform_eq, Source.outcome,
      tree_of_tooLong _ digits long, log_eq_empty rfl]
    rfl
  rw [run_of_accepted accepted rfl]
  dsimp only [Source.ofOptions, List.isEmpty_cons]
  rw [if_neg Bool.false_ne_true, ends]
  rfl

end CommandLine
end Precedence
