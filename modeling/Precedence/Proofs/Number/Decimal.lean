import Precedence.Number.Numeral

/-!
# Reading decimals

ASCII digits are read as the number that they write in base ten, as long as there are not
too many of them (`read_digits`). So reading undoes writing (`read_decimal`). Different
integers are written differently, however many digits they have (`decimal_injective`).
-/

namespace Precedence
namespace Numeral

variable {c : Char}
variable {chars : List Char}

theorem toNat_of_isDigit
    (digit : c.isDigit = true) :
    48 ≤ c.toNat ∧ c.toNat ≤ 57 := by
  simp only [Char.isDigit, ge_iff_le, Bool.and_eq_true, decide_eq_true_eq] at digit
  exact ⟨digit.1, digit.2⟩

theorem digitValue?_of_isDigit
    (digit : c.isDigit = true) :
    Text.digitValue? c = some (c.toNat - 48) := by
  obtain ⟨low, high⟩ := toNat_of_isDigit digit
  simp [Text.digitValue?, Text.digitZeros, low, high]

theorem isBody_of_isDigit
    (digit : c.isDigit = true) :
    isBody c = true := by
  simp [isBody, digitValue?_of_isDigit digit]

theorem not_isBlank_of_isDigit
    (digit : c.isDigit = true) :
    Text.isBlank c = false := by
  obtain ⟨low, high⟩ := toNat_of_isDigit digit
  apply Bool.eq_false_iff.mpr
  intro blank
  simp only [Text.isBlank, Text.blankRanges, List.any_cons, List.any_nil, Bool.or_eq_true,
    Bool.and_eq_true, decide_eq_true_eq, Bool.false_eq_true, or_false] at blank
  omega

theorem not_isMargin_of_isDigit
    (digit : c.isDigit = true) :
    isMargin c = false := by
  rw [isMargin, not_isBlank_of_isDigit digit, Bool.false_and]

theorem ne_of_isDigit
    {other : Char}
    (digit : c.isDigit = true)
    (notDigit : other.isDigit = false) :
    c ≠ other := by
  rintro rfl
  rw [digit] at notDigit
  cases notDigit

theorem separatesDigits_of_digits
    (digits : ∀ c ∈ chars, c.isDigit = true)
    (afterDigit : Bool)
    (nonempty : afterDigit = true ∨ chars ≠ []) :
    separatesDigits afterDigit chars = true := by
  induction chars generalizing afterDigit with
  | nil =>
      rcases nonempty with rfl | nonempty
      · rfl
      · exact absurd rfl nonempty
  | cons c rest ih =>
      have digit := digits c List.mem_cons_self
      rw [separatesDigits, if_neg (ne_of_isDigit digit (by decide))]
      exact ih (fun other there => digits other (List.mem_cons_of_mem c there)) true (.inl rfl)

theorem filterMap_digitValue?
    (digits : ∀ c ∈ chars, c.isDigit = true) :
    chars.filterMap Text.digitValue? = chars.map fun c => c.toNat - 48 := by
  induction chars with
  | nil =>
      rfl
  | cons c rest ih =>
      rw [List.filterMap_cons_some (digitValue?_of_isDigit (digits c List.mem_cons_self)),
        ih (fun other there => digits other (List.mem_cons_of_mem c there)), List.map_cons]

theorem ofDigits_map
    (chars : List Char) :
    ofDigits (chars.map fun c => c.toNat - 48) = Nat.ofDigitChars 10 chars 0 := by
  rw [ofDigits, List.foldl_map, Nat.ofDigitChars_eq_foldl]
  rfl

theorem splitSign_of_isDigit
    (rest : List Char)
    (digit : c.isDigit = true) :
    splitSign (c :: rest) = (false, c :: rest) := by
  unfold splitSign
  split
  · rename_i same
    cases same
    cases digit
  · rename_i same
    cases same
    cases digit
  · rfl

/-- Digits are read as the number that they write, unless there are too many of them. -/
theorem read_digits
    (digits : ∀ c ∈ chars, c.isDigit = true)
    (nonempty : chars ≠ []) :
    read (String.ofList chars) =
      if digitLimit < chars.length then .error (.tooLongToRead chars.length)
      else .ok (Nat.ofDigitChars 10 chars 0) := by
  have body : ∀ c ∈ chars, isBody c = true := fun c there => isBody_of_isDigit (digits c there)
  obtain ⟨c, rest, rfl⟩ := List.exists_cons_of_ne_nil nonempty
  have digit := digits c List.mem_cons_self
  have margin : (c :: rest).dropWhile isMargin = c :: rest :=
    List.dropWhile_cons_of_neg (by simp [not_isMargin_of_isDigit digit])
  have all : (c :: rest).takeWhile isBody = c :: rest := by
    simpa using @List.takeWhile_append_of_pos _ isBody (c :: rest) [] body
  have none : (c :: rest).dropWhile isBody = [] := by
    simpa using @List.dropWhile_append_of_pos _ isBody (c :: rest) [] body
  unfold read
  simp only [String.toList_ofList, margin, splitSign_of_isDigit rest digit, all, none,
    separatesDigits_of_digits digits false (.inr nonempty), filterMap_digitValue? digits,
    List.length_map, gt_iff_lt, ofDigits_map, List.all_nil, Bool.not_true,
    Bool.false_eq_true, if_false]

theorem read_ofList
    (digits : ∀ c ∈ chars, c.isDigit = true)
    (nonempty : chars ≠ [])
    (short : chars.length ≤ digitLimit) :
    read (String.ofList chars) = .ok (Nat.ofDigitChars 10 chars 0) := by
  rw [read_digits digits nonempty, if_neg (Nat.not_lt.mpr short)]

theorem decimal_natCast
    (n : Nat) :
    decimal n = String.ofList (Nat.toDigits 10 n) :=
  Nat.repr_eq_ofList_toDigits

theorem isDigit_of_mem_toDigits
    {n : Nat} :
    ∀ c ∈ Nat.toDigits 10 n, c.isDigit = true :=
  fun _ there => Nat.isDigit_of_mem_toDigits (by decide) (by decide) there

/-- Reading undoes writing. -/
theorem read_decimal
    {n : Nat}
    (short : (Nat.toDigits 10 n).length ≤ digitLimit) :
    read (decimal n) = .ok n := by
  rw [decimal_natCast, read_ofList isDigit_of_mem_toDigits Nat.toDigits_ne_nil short,
    Nat.ofDigitChars_toDigits (by decide) (by decide)]

theorem eq_of_toDigits
    {m n : Nat}
    (same : Nat.toDigits 10 m = Nat.toDigits 10 n) :
    m = n := by
  have values := congrArg (fun chars => Nat.ofDigitChars 10 chars 0) same
  simpa [Nat.ofDigitChars_toDigits] using values

theorem decimal_negSucc
    (n : Nat) :
    decimal (.negSucc n) = "-" ++ decimal (n + 1 : Nat) :=
  rfl

/-- No natural number begins with a sign. -/
theorem decimal_natCast_ne
    (n : Nat)
    (text : String) :
    decimal n ≠ "-" ++ text := by
  intro same
  rw [decimal_natCast, ← String.toList_inj, String.toList_ofList, String.toList_append] at same
  have sign : '-' ∈ Nat.toDigits 10 n := by
    rw [same]
    exact List.mem_append_left _ (by decide)
  cases isDigit_of_mem_toDigits _ sign

/-- The decimal determines the integer. -/
theorem decimal_injective
    {m n : Int}
    (same : decimal m = decimal n) :
    m = n := by
  have natural {m n : Nat} (same : decimal m = decimal n) : m = n := by
    rw [decimal_natCast, decimal_natCast, String.ofList_inj] at same
    exact eq_of_toDigits same
  cases m with
  | ofNat m =>
      cases n with
      | ofNat n => exact congrArg Int.ofNat (natural same)
      | negSucc n => exact absurd same (decimal_natCast_ne m _)
  | negSucc m =>
      cases n with
      | ofNat n => exact absurd same.symm (decimal_natCast_ne n _)
      | negSucc n =>
          rw [decimal_negSucc, decimal_negSucc, String.append_right_inj] at same
          exact congrArg Int.negSucc (Nat.succ.inj (natural same))

theorem decimal_ne_empty
    (n : Int) :
    decimal n ≠ "" := by
  intro empty
  have none := congrArg String.toList empty
  cases n with
  | ofNat n =>
      change (decimal n).toList = [] at none
      rw [decimal_natCast, String.toList_ofList] at none
      exact Nat.toDigits_ne_nil none
  | negSucc n =>
      rw [decimal_negSucc, String.toList_append] at none
      simp at none

/-- An integer is not written only if it has too many digits. -/
theorem write_error_inv
    {n : Int}
    {error : Error}
    (fails : write n = .error error) :
    error = .tooLongToWrite ∧ Nat.pow 10 digitLimit ≤ n.natAbs := by
  unfold write at fails
  by_cases short : n.natAbs < Nat.pow 10 digitLimit
  · rw [if_pos short] at fails
    cases fails
  · rw [if_neg short] at fails
    exact ⟨(Except.error.inj fails).symm, Nat.not_lt.mp short⟩

end Numeral
end Precedence
