import Precedence.Proofs.CommandLine.Session

/-!
# Arguments behind other words

Words that are accepted and hold no expression may have arguments put behind them. Whatever the
words are, options with their values or the separator, the arguments become the expressions and
all else that is asked for stays as it was (`ofWords_append`).
-/

namespace Precedence
namespace CommandLine

/-- Behind the separator there are no words but arguments. -/
def SeparatorLast (classified : List Word) : Prop :=
  ∀ front back, classified = front ++ .separator :: back →
    ∃ texts : List String, back = texts.map .argument

namespace SeparatorLast

variable {word : Word}
variable {classified : List Word}

theorem tail
    (separated : SeparatorLast (word :: classified)) :
    SeparatorLast classified :=
  fun front back split => separated (word :: front) back (congrArg (word :: ·) split)

theorem cons
    (notSeparator : word ≠ .separator)
    (separated : SeparatorLast classified) :
    SeparatorLast (word :: classified) := by
  intro front back split
  cases front with
  | nil =>
      cases split
      exact absurd rfl notSeparator
  | cons first front =>
      cases split
      exact separated front back rfl

end SeparatorLast

section Classified

variable {words arguments : List String}
variable {classified : List Word}

theorem classify_ne_separator
    {word : String}
    {first : Word}
    (classifies : Word.classify word = .ok first) :
    first ≠ .separator := by
  rintro rfl
  have other (classifies : Word.classifyOther word = .ok .separator) : False := by
    unfold Word.classifyOther at classifies
    repeat' split at classifies
    all_goals cases classifies
  unfold Word.classify at classifies
  repeat' split at classifies
  all_goals first | exact other classifies | cases classifies

/-- Arguments are classified as such behind all words that are classified. -/
theorem classifyAll_append
    (plain : ∀ word ∈ arguments, word.toList.head? ≠ some '-')
    (classifies : Word.classifyAll words = .ok classified) :
    Word.classifyAll (words ++ arguments) = .ok (classified ++ arguments.map .argument) ∧
      SeparatorLast classified := by
  induction words generalizing classified with
  | nil =>
      cases classifies
      exact ⟨classifyAll_of_plain plain, fun front back split => by simp at split⟩
  | cons word words ih =>
      rw [Word.classifyAll] at classifies
      rw [List.cons_append, Word.classifyAll]
      by_cases separates : word = Word.separatorText
      · rw [if_pos separates] at classifies ⊢
        cases classifies
        refine ⟨by rw [List.map_append]; rfl, fun front back split => ?_⟩
        cases front with
        | nil =>
            cases split
            exact ⟨words, rfl⟩
        | cons first front =>
            obtain ⟨_, argument, isSeparator⟩ : ∃ text ∈ words, Word.argument text = .separator := by
              rw [← List.mem_map, (List.cons.inj split).2]
              simp
            cases isSeparator
      · rw [if_neg separates] at classifies ⊢
        obtain ⟨first, ofWord, classifies⟩ := Parser.bind_inv classifies
        obtain ⟨rest, ofWords, classifies⟩ := Parser.bind_inv classifies
        cases classifies
        obtain ⟨appended, separated⟩ := ih ofWords
        rw [ofWord, appended]
        exact ⟨rfl, separated.cons (classify_ne_separator ofWord)⟩

end Classified

section Read

variable {stage : Options.Stage}
variable {options result : Options}
variable {unrecognized : List String}
variable {classified : List Word}

/-- Expressions that were read stay, and no word has been unrecognized at an end. -/
theorem readFrom_inv
    (accepted : Options.readFrom stage options unrecognized classified = .ok result) :
    unrecognized = [] ∧ options.expressions <+: result.expressions := by
  fun_induction Options.readFrom stage options unrecognized classified with
  | case1 stage options unrecognized =>
      cases unrecognized with
      | nil =>
          cases accepted
          exact ⟨rfl, List.prefix_refl _⟩
      | cons word others => cases accepted
  | case2 _ _ _ _ ih | case4 _ _ _ ih | case6 _ _ _ _ _ ih => simpa using (ih accepted).1
  | case3 _ _ _ text _ _ ih =>
      obtain ⟨recognized, kept⟩ := ih accepted
      exact ⟨recognized, (List.prefix_append _ _).trans kept⟩
  | case5 _ _ _ _ _ ih | case7 _ _ _ _ _ ih | case8 _ _ _ _ _ ih | case12 _ _ _ _ ih
  | case13 _ _ _ _ ih => exact ih accepted
  | case9 | case10 | case11 => cases accepted

/-- Without an expression so far, what is put behind the words are the expressions. -/
theorem readFrom_append
    (arguments : List String)
    (begins : stage = .before)
    (separated : SeparatorLast classified)
    (accepted : Options.readFrom stage options unrecognized classified = .ok result)
    (none : result.expressions = []) :
    Options.readFrom stage options unrecognized (classified ++ arguments.map .argument) =
      .ok { result with expressions := arguments } := by
  fun_induction Options.readFrom stage options unrecognized classified with
  | case1 stage options unrecognized =>
      cases unrecognized with
      | cons word others => cases accepted
      | nil =>
          cases accepted
          subst begins
          rw [List.nil_append, readFrom_arguments (by decide), none, List.nil_append]
  | case2 _ _ _ _ ih | case4 _ _ _ ih | case6 _ _ _ _ _ ih =>
      simpa using (readFrom_inv accepted).1
  | case3 _ _ _ text _ _ ih =>
      have kept := (readFrom_inv accepted).2
      rw [none] at kept
      simp at kept
  | case5 stage options unrecognized behind begun ih =>
      -- Behind the separator there is nothing, since an argument would be an expression.
      obtain ⟨texts, rfl⟩ := separated [] behind rfl
      obtain ⟨rfl, _⟩ := readFrom_inv accepted
      rw [readFrom_arguments (by decide)] at accepted
      cases accepted
      obtain ⟨old, new⟩ := List.append_eq_nil_iff.mp none
      subst new
      rw [List.map_nil, List.cons_append, List.nil_append, Options.readFrom, if_neg begun,
        readFrom_arguments (by decide), old, List.nil_append]
  | case7 _ _ _ _ _ ih | case12 _ _ _ _ ih | case13 _ _ _ _ ih =>
      subst begins
      exact ih rfl separated.tail accepted
  | case8 _ _ _ _ _ ih =>
      subst begins
      exact ih rfl separated.tail.tail accepted
  | case9 | case10 | case11 => cases accepted

end Read

/-- Words without an expression, behind which arguments are put that become the expressions. -/
theorem ofWords_append
    {words arguments : List String}
    {options : Options}
    (plain : ∀ word ∈ arguments, word.toList.head? ≠ some '-')
    (accepted : Options.ofWords words = .ok options)
    (none : options.expressions = []) :
    Options.ofWords (words ++ arguments) = .ok { options with expressions := arguments } := by
  unfold Options.ofWords at accepted ⊢
  cases classifies : Word.classifyAll words with
  | error error =>
      rw [classifies] at accepted
      cases accepted
  | ok classified =>
      rw [classifies] at accepted
      obtain ⟨appended, separated⟩ := classifyAll_append plain classifies
      rw [appended]
      exact readFrom_append arguments rfl separated accepted none

end CommandLine
end Precedence
