import Precedence.Proofs.Grammar.Derivation

/-!
# Nesting while reading

How a bound on nesting goes over to the tokens that remain when some were read. What is
derived has as many closed as opened parentheses, so it leaves the bound as it is; an opened
parenthesis lowers it by one.
-/

namespace Precedence

section Counts

variable {α β : Type}
variable {items : List α}

theorem countP_flatMap_eq
    {matching : α → Bool}
    {matching' : β → Bool}
    {spelling : α → List β}
    (same : ∀ item ∈ items, (spelling item).countP matching' = [item].countP matching) :
    (items.flatMap spelling).countP matching' = items.countP matching := by
  induction items with
  | nil =>
      rfl
  | cons item items ih =>
      rw [List.flatMap_cons, List.countP_append, same item List.mem_cons_self,
        ih fun other there => same other (List.mem_cons_of_mem item there),
        ← List.countP_append, List.singleton_append]

theorem countP_filter_eq
    {matching keep : α → Bool}
    (kept : ∀ item, matching item = true → keep item = true) :
    (items.filter keep).countP matching = items.countP matching := by
  rw [List.countP_filter]
  apply List.countP_congr
  intro item _
  rw [Bool.and_eq_true]
  exact ⟨fun both => both.1, fun matched => ⟨matched, kept item matched⟩⟩

end Counts

namespace NestsWithin

variable {α β : Type}
variable {opening closing : α → Bool}
variable {limit : Nat}
variable {item : α}
variable {front back items : List α}

instance : Decidable (NestsWithin opening closing limit items) :=
  decidable_of_iff
    (∀ count < items.length + 1,
      (items.take count).countP opening ≤ (items.take count).countP closing + limit) <| by
    constructor
    · intro within front isFront
      rw [List.prefix_iff_eq_take.mp isFront]
      exact within front.length (Nat.lt_succ_of_le isFront.length_le)
    · intro nests count _
      exact nests (items.take count) (List.take_prefix count items)

/-- Where nothing is opened, nothing nests. -/
theorem of_none
    (none : ∀ item ∈ items, opening item = false) :
    NestsWithin opening closing limit items := by
  intro front isFront
  have unopened : front.countP opening = 0 :=
    List.countP_eq_zero.mpr fun item there => by simp [none item (isFront.subset there)]
  omega

/-- What is balanced leaves the bound for the rest. -/
theorem of_append
    (nests : NestsWithin opening closing limit (front ++ back))
    (balanced : front.countP opening = front.countP closing) :
    NestsWithin opening closing limit back := by
  intro part isPart
  have whole := nests (front ++ part) ((List.prefix_append_right_inj front).mpr isPart)
  rw [List.countP_append, List.countP_append] at whole
  omega

/-- What is opened leaves one less for the rest. -/
theorem of_opening
    (nests : NestsWithin opening closing limit (item :: items))
    (opens : opening item = true)
    (notCloses : closing item = false) :
    ∃ inner, limit = inner + 1 ∧ NestsWithin opening closing inner items := by
  have here := nests [item] ⟨items, rfl⟩
  rw [List.countP_cons_of_pos opens, List.countP_cons_of_neg (by simp [notCloses])] at here
  simp only [List.countP_nil] at here
  refine ⟨limit - 1, by omega, ?_⟩
  intro part isPart
  have whole := nests (item :: part) (List.cons_prefix_cons.mpr ⟨rfl, isPart⟩)
  rw [List.countP_cons_of_pos opens, List.countP_cons_of_neg (by simp [notCloses])] at whole
  omega

/-- Items that are spelled with as many of both nest as their spelling does. -/
theorem of_flatMap
    {opening' closing' : β → Bool}
    {spelling : α → List β}
    (nests : NestsWithin opening' closing' limit (items.flatMap spelling))
    (opens : ∀ item ∈ items, (spelling item).countP opening' = [item].countP opening)
    (closes : ∀ item ∈ items, (spelling item).countP closing' = [item].countP closing) :
    NestsWithin opening closing limit items := by
  rintro front ⟨back, rfl⟩
  have whole := nests (front.flatMap spelling) ⟨back.flatMap spelling, List.flatMap_append.symm⟩
  rw [countP_flatMap_eq fun item there => opens item (List.mem_append_left back there),
    countP_flatMap_eq fun item there => closes item (List.mem_append_left back there)] at whole
  exact whole

/-- Leaving out what neither opens nor closes changes no nesting. -/
theorem filter
    {keep : α → Bool}
    (nests : NestsWithin opening closing limit items)
    (opens : ∀ item, opening item = true → keep item = true)
    (closes : ∀ item, closing item = true → keep item = true) :
    NestsWithin opening closing limit (items.filter keep) := by
  intro front isFront
  obtain ⟨whole, isWhole, rfl⟩ := List.prefix_filter_iff.mp isFront
  rw [countP_filter_eq opens, countP_filter_eq closes]
  exact nests whole isWhole

theorem of_map
    {f : α → β}
    {opening closing : β → Bool}
    (nests : NestsWithin opening closing limit (items.map f)) :
    NestsWithin (opening ∘ f) (closing ∘ f) limit items := by
  intro front isFront
  have mapped := nests (front.map f) (isFront.map f)
  rwa [List.countP_map, List.countP_map] at mapped

end NestsWithin

namespace LevelTable

variable {table levels : LevelTable}
variable {tokens : List Token}
variable {expr : Expr}

theorem balanced_separator
    {separator : Token}
    {symbol : String}
    (separates : separator.is Tag.operator symbol = true) :
    [separator].countP Token.opens = [separator].countP Token.closes := by
  have other : separator.tag ≠ Tag.reserved := by
    rw [(Token.is_iff.mp separates).1]
    decide
  simp only [List.countP_singleton, Token.not_opens_of_tag other,
    Token.not_closes_of_tag other]

/-- A separator in front changes nothing, as it is no parenthesis. -/
theorem balanced_cons
    {separator : Token}
    {symbol : String}
    (separates : separator.is Tag.operator symbol = true)
    (balanced : tokens.countP Token.opens = tokens.countP Token.closes) :
    (separator :: tokens).countP Token.opens = (separator :: tokens).countP Token.closes := by
  rw [← List.singleton_append, List.countP_append, List.countP_append,
    balanced_separator separates, balanced]

theorem balanced_operands
    {symbol : String}
    {operands : List Operand}
    (separators : ∀ operand ∈ operands, operand.separator.is Tag.operator symbol = true)
    (balanced : ∀ operand ∈ operands,
      operand.tokens.countP Token.opens = operand.tokens.countP Token.closes) :
    (operands.flatMap Operand.all).countP Token.opens =
      (operands.flatMap Operand.all).countP Token.closes := by
  induction operands with
  | nil =>
      rfl
  | cons operand operands ih =>
      have here := balanced_cons (separators operand List.mem_cons_self)
        (balanced operand List.mem_cons_self)
      have behind := ih (fun other there => separators other (List.mem_cons_of_mem _ there))
        (fun other there => balanced other (List.mem_cons_of_mem _ there))
      rw [List.flatMap_cons, List.countP_append, List.countP_append, Operand.all, here, behind]

/-- What is derived closes what it opens. -/
theorem Derives.balanced
    (derives : Derives table levels tokens expr) :
    tokens.countP Token.opens = tokens.countP Token.closes := by
  induction derives with
  | @integer token value tagged reads =>
      have other : token.tag ≠ Tag.reserved := by
        rw [tagged]
        decide
      simp only [List.countP_singleton, Token.not_opens_of_tag other,
        Token.not_closes_of_tag other]
  | @group opening closing tokens expr opens inner closes ih =>
      have notCloses := Token.not_closes_of_opens opens
      have notOpens := Token.not_opens_of_closes closes
      simp only [List.countP_cons, List.countP_append, List.countP_nil, opens, closes,
        notCloses, notOpens, ih]
      omega
  | @level level levels tokens first operands head separators tail ihHead ihTail =>
      rw [List.countP_append, List.countP_append, ihHead, balanced_operands separators ihTail]

end LevelTable
end Precedence
