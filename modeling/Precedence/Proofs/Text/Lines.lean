import Mathlib.Data.String.Basic
import Precedence.Proofs.Number.Decimal

/-!
# Lines

A text is cut into lines at its line feeds. On the characters this is `List.splitOn`
(`splitOn_lineFeed`). Lines that are put together again are the lines of the text, whether the
last one has an end or not; one that has an end has an empty line behind it (`splitOn_lines`).
Put together and cut again are lines only where none of them has an end inside (`OneLine`,
`splitOn_join`).
-/

namespace Precedence

/-- A text without an end of a line. -/
def OneLine (text : String) : Prop :=
  '\n' ∉ text.toList

namespace OneLine

variable {first second : String}

instance (text : String) : Decidable (OneLine text) :=
  inferInstanceAs (Decidable (_ ∉ _))

theorem append
    (isFirst : OneLine first)
    (isSecond : OneLine second) :
    OneLine (first ++ second) := by
  rw [OneLine, String.toList_append, List.mem_append]
  exact fun there => there.elim isFirst isSecond

theorem singleton
    {c : Char}
    (differs : c ≠ '\n') :
    OneLine (String.singleton c) := by
  simpa [OneLine] using differs.symm

theorem natural
    (n : Nat) :
    OneLine (toString n) := by
  change OneLine (Nat.repr n)
  rw [Nat.repr_eq_ofList_toDigits, OneLine, String.toList_ofList]
  intro there
  exact absurd (Numeral.isDigit_of_mem_toDigits _ there) (by decide)

theorem integer
    (n : Int) :
    OneLine (toString n) := by
  cases n with
  | ofNat n => exact natural n
  | negSucc n => exact append (by decide) (natural (n + 1))

end OneLine

namespace Text

open String

/-- The loop behind `String.splitOn`, in front of the rest of a text with a piece of it begun. -/
theorem splitOnAux_ofList
    (c : Char)
    (front piece rest : List Char)
    (pieces : List String) :
    (ofList (front ++ piece ++ rest)).splitOnAux (ofList [c]) ⟨utf8Len front⟩
        ⟨utf8Len front + utf8Len piece⟩ 0 pieces =
      pieces.reverse ++ (rest.splitOnPPrepend (· == c) piece.reverse).map ofList := by
  have separator : Pos.Raw.get (ofList [c]) 0 = c := get_of_valid [] [c]
  have width : Pos.Raw.next (ofList [c]) 0 = ⟨0 + c.utf8Size⟩ := next_of_valid [] c []
  have single : Pos.Raw.atEnd (ofList [c]) ⟨0 + c.utf8Size⟩ = true :=
    (atEnd_of_valid [c] []).mpr rfl
  have extracted := extract_of_valid front piece rest
  have here := get_of_valid (front ++ piece) rest
  have ends := atEnd_of_valid (front ++ piece) rest
  rw [utf8Len_append] at here ends
  rw [splitOnAux.eq_def]
  cases rest with
  | nil =>
      rw [if_pos (ends.mpr rfl), extracted]
      simp
  | cons d rest =>
      have next := next_of_valid (front ++ piece) d rest
      rw [utf8Len_append] at next
      rw [if_neg (ends.not.mpr (List.cons_ne_nil d rest)), here, separator, List.headD_cons,
        List.splitOnPPrepend_cons_eq_if]
      by_cases same : d = c
      · subst same
        have back : Pos.Raw.unoffsetBy ⟨utf8Len front + utf8Len piece + d.utf8Size⟩
            ⟨0 + d.utf8Size⟩ = ⟨utf8Len front + utf8Len piece⟩ := by
          simp [Pos.Raw.unoffsetBy]
        have later := splitOnAux_ofList d (front ++ piece ++ [d]) [] rest (ofList piece :: pieces)
        simp only [beq_self_eq_true, if_true, next, width, single, back, extracted]
        simpa [-ofList_append, Nat.add_assoc] using later
      · have later := splitOnAux_ofList c front (piece ++ [d]) rest pieces
        have differs : ¬ (d == c) = true := by
          simpa using same
        have back (position : Pos.Raw) : position.unoffsetBy 0 = position := by
          simp [Pos.Raw.unoffsetBy]
        simp only [if_neg differs, back, next]
        simpa [-ofList_append, Nat.add_assoc] using later

/-- On the characters of a text the library cuts it where `List.splitOn` does. -/
theorem splitOn_lineFeed
    (text : String) :
    text.splitOn "\n" = (text.toList.splitOn '\n').map ofList := by
  have pieces := splitOnAux_ofList '\n' [] [] text.toList []
  rw [List.nil_append, List.nil_append, ofList_toList] at pieces
  exact pieces

theorem splitOn_intercalate
    {lines : List String}
    (whole : ∀ line ∈ lines, OneLine line)
    (nonempty : lines ≠ []) :
    ("\n".intercalate lines).splitOn "\n" = lines := by
  have cut : (['\n'].intercalate (lines.map toList)).splitOn '\n' = lines.map toList :=
    List.splitOn_intercalate '\n' (by simpa [OneLine] using whole) (by simpa using nonempty)
  rw [splitOn_lineFeed, toList_intercalate]
  exact (congrArg (List.map ofList) cut).trans (by simp)

/-- With an end behind every line there is an empty line behind the last end. -/
theorem join_terminated
    (lines : List String) :
    String.join (lines.map (· ++ "\n")) = "\n".intercalate (lines ++ [""]) := by
  rw [← toList_inj, toList_join, toList_intercalate]
  induction lines with
  | nil => rfl
  | cons line lines ih =>
      rw [List.cons_append, List.map_cons, List.map_cons, List.flatMap_cons, ih,
        List.intercalate_cons_of_ne_nil (by simp), toList_append]

/-- Lines that all have an end are the lines of the text, with an empty one behind them. -/
theorem splitOn_join
    {lines : List String}
    (whole : ∀ line ∈ lines, OneLine line) :
    (String.join (lines.map (· ++ "\n"))).splitOn "\n" = lines ++ [""] := by
  rw [join_terminated, splitOn_intercalate _ (by simp)]
  intro line there
  rcases List.mem_append.mp there with there | there
  · exact whole line there
  · rw [List.mem_singleton.mp there]
    decide

/--
Lines that are written one behind the other are the lines of the text, whether the last one has
an end or not, except that there may be an empty line behind them.
-/
theorem splitOn_lines
    {lines : List String}
    {text : String}
    (whole : ∀ line ∈ lines, OneLine line)
    (written : text = "\n".intercalate lines ∨ text = String.join (lines.map (· ++ "\n"))) :
    ∃ behind, text.splitOn "\n" = lines ++ behind ∧ ∀ line ∈ behind, line = "" := by
  have last : ∀ line ∈ [""], line = "" := by
    simp
  rcases written with rfl | rfl
  · by_cases none : lines = []
    · subst none
      exact ⟨[""], by rw [splitOn_lineFeed]; rfl, last⟩
    · exact ⟨[], by rw [splitOn_intercalate whole none, List.append_nil], by simp⟩
  · exact ⟨[""], splitOn_join whole, last⟩

theorem mem_intercalate
    {α : Type}
    {x : α}
    {separator piece : List α}
    {pieces : List (List α)}
    (inside : x ∈ piece)
    (there : piece ∈ pieces) :
    x ∈ separator.intercalate pieces := by
  induction pieces with
  | nil => cases there
  | cons first pieces ih =>
      rcases List.mem_cons.mp there with rfl | there
      · cases pieces with
        | nil => simpa using inside
        | cons second pieces => simp [List.intercalate_cons_cons, inside]
      · rw [List.intercalate_cons_of_ne_nil (List.ne_nil_of_mem there)]
        exact List.mem_append_right _ (ih there)

/-- The lines of a blank text are blank. -/
theorem allBlank_of_mem_splitOn
    {text line : String}
    (blank : allBlank text = true)
    (there : line ∈ text.splitOn "\n") :
    allBlank line = true := by
  rw [splitOn_lineFeed] at there
  obtain ⟨chars, among, rfl⟩ := List.mem_map.mp there
  rw [allBlank, List.all_eq_true] at blank ⊢
  rw [toList_ofList]
  intro c inside
  have whole : ['\n'].intercalate (text.toList.splitOn '\n') = text.toList :=
    List.intercalate_splitOn '\n'
  rw [← whole] at blank
  exact blank c (mem_intercalate inside among)

end Text
end Precedence
