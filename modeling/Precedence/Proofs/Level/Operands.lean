import Precedence.Level
import Precedence.Proofs.Parser.Repetition

/-!
# The operands of a level

A level of an operator reads one operand and then a maximal repetition of the operator with
an operand behind it. The run of it is a fold of its combining action over the operands, in
any lawful monad: from the left while reading if the level groups to the left, and from the
right behind the last operand if it groups to the right.

A level fails exactly as its first operand fails.
-/

namespace Precedence
namespace Level

section Folds

variable {τ : Type}

/-- Combine the operands of a non-empty list from the last pair to the first. -/
def foldRight (f : τ → τ → τ) : τ → List τ → τ
  | first, [] => first
  | first, second :: rest => f first (foldRight f second rest)

variable {f : τ → τ → τ}

theorem foldRight_combined
    (assoc : ∀ a b c, f (f a b) c = f a (f b c))
    (a b : τ)
    (rest : List τ) :
    foldRight f (f a b) rest = f a (foldRight f b rest) := by
  cases rest with
  | nil =>
      rfl
  | cons c rest =>
      rw [foldRight, foldRight, assoc]

/-- An associative function gives the same from both sides. -/
theorem foldRight_eq_foldl
    (assoc : ∀ a b c, f (f a b) c = f a (f b c))
    (first : τ)
    (rest : List τ) :
    foldRight f first rest = rest.foldl f first := by
  induction rest generalizing first with
  | nil =>
      rfl
  | cons second rest ih =>
      rw [List.foldl_cons, ← ih, foldRight_combined assoc, foldRight]

end Folds

section Runs

variable {ν τ β : Type} {ε : Type}
variable {m : Type → Type} [Monad m] [LawfulMonad m] [MonadExcept (Fault ε) m]
variable {call : ν → Reader → m (Result τ)}
variable {next : Parser ν τ m τ} {operator : Parser ν τ m β}
variable {Good : Reader → Prop} {file : String}
variable {reader behind stop : Reader} {here : Location} {first : τ} {rest : List τ}

open Precedence.Parser

theorem runWith_leftAssociative
    (steady : Steady (runWith call (operator.keepRight next)) Good file)
    (run : runWith call next reader = pure (.success here first behind))
    (hereIn : here.fileName = file)
    (good : Good behind)
    (repeats : Repeats (runWith call (operator.keepRight next)) behind rest stop)
    (combine : τ → τ → m τ) :
    ∃ covered,
      covered.fileName = file ∧
      runWith call (next.leftRec (operator.keepRight next) fun a b _ => combine a b) reader =
        rest.foldlM combine first >>= fun folded =>
          pure (.success covered folded stop) := by
  obtain ⟨covered, coveredIn, folds⟩ :=
    steady.foldFrom_eq repeats good combine behind.rest (Nat.le_refl _) hereIn
  refine ⟨covered, coveredIn, ?_⟩
  rw [runWith, run, onSuccess_success]
  exact folds first

theorem runWith_rightAssociative
    (steady : Steady (runWith call (operator.keepRight next)) Good file)
    (run : runWith call next reader = pure (.success here first behind))
    (hereIn : here.fileName = file)
    (good : Good behind)
    (behindIn : behind.location.fileName = file)
    (repeats : Repeats (runWith call (operator.keepRight next)) behind rest stop)
    (combine : τ → τ → m τ) :
    ∃ covered,
      covered.fileName = file ∧
      runWith call ((next.rep1Sep operator).process fun operands _ =>
          reduceRight combine operands) reader =
        reduceRight combine (first :: rest) >>= fun reduced =>
          pure (.success covered reduced stop) := by
  obtain ⟨repeated, repeatedIn, collects⟩ :=
    steady.repeatFrom_eq repeats good behind.rest (Nat.le_refl _) behindIn
  have tail :
      runWith call (operator.keepRight next).rep behind =
        pure (.success repeated rest stop) := by
    rw [runWith]
    exact collects
  obtain ⟨covered, coveredIn, both⟩ := runWith_seq_success run tail hereIn repeatedIn
  have operands := runWith_map_success (fun values => values.1 :: values.2) both
  refine ⟨covered, coveredIn, ?_⟩
  rw [runWith]
  unfold rep1Sep
  rw [operands, onSuccess_success]

theorem runWith_leftAssociative_failure
    {message : String}
    (run : runWith call next reader = pure (.failure here message))
    (combine : τ → τ → m τ) :
    runWith call (next.leftRec (operator.keepRight next) fun a b _ => combine a b) reader =
      pure (.failure here message) := by
  rw [runWith, run, onSuccess_failure]

theorem runWith_rightAssociative_failure
    {message : String}
    (run : runWith call next reader = pure (.failure here message))
    (combine : τ → τ → m τ) :
    runWith call ((next.rep1Sep operator).process fun operands _ =>
        reduceRight combine operands) reader =
      pure (.failure here message) := by
  have operands :=
    runWith_map_failure (fun values => values.1 :: values.2)
      (runWith_seq_failure (q := (operator.keepRight next).rep) run)
  rw [runWith]
  unfold rep1Sep
  rw [operands, onSuccess_failure]

end Runs

end Level
end Precedence
