import Mathlib.Data.List.Basic
import Mathlib.Order.Bounds.Basic
import Precedence.Proofs.Location.Order

/-!
# Covering many locations

Two locations of one file are covered by the least location around both. Many are covered by
doing so again and again, in some order and with some bracketing (`Grouping`). The result is the
least location around all of them, so that neither the order nor the bracketing matters
(`combined_is_hull`).

What carries the induction over the brackets is `Hull`: the place that is covered begins with the
first of the locations to begin, and ends with the last to end.
-/

namespace Precedence
namespace Location

variable {a b whole : Location}
variable {file : String}
variable {locations others : List Location}

/-- The place in the file of the first location that reaches around both locations. -/
def around (a b : Location) : Location :=
  known ⟨a.fileName, min a.span.start b.span.start, max a.span.stop b.span.stop⟩

@[simp] theorem fileName_around
    (a b : Location) :
    (a.around b).fileName = a.fileName :=
  rfl

@[simp] theorem start_around
    (a b : Location) :
    (a.around b).span.start = min a.span.start b.span.start :=
  rfl

@[simp] theorem stop_around
    (a b : Location) :
    (a.around b).span.stop = max a.span.stop b.span.stop :=
  rfl

theorem around_assoc
    (a b c : Location) :
    (a.around b).around c = a.around (b.around c) := by
  simp [around, fileName, span, min_assoc, max_assoc]

/-- Locations are not covered exactly if they are in different files. -/
theorem combine?_eq_none_iff :
    a.combine? b = none ↔ a.fileName ≠ b.fileName := by
  rw [← Option.not_isSome_iff_eq_none, isSome_combine?]

theorem combine?_of_sameFile
    (same : a.fileName = b.fileName) :
    a.combine? b = some (a.around b) := by
  rw [combine?, if_pos same, Position.earlier_eq_min, Position.later_eq_max, around]

/-- Where locations begin. -/
def starts (locations : List Location) : Set Position :=
  {p | ∃ location ∈ locations, location.span.start = p}

/-- Where locations end. -/
def stops (locations : List Location) : Set Position :=
  {p | ∃ location ∈ locations, location.span.stop = p}

theorem starts_append
    (locations others : List Location) :
    starts (locations ++ others) = starts locations ∪ starts others := by
  ext p
  simp [starts, or_and_right, exists_or]

theorem stops_append
    (locations others : List Location) :
    stops (locations ++ others) = stops locations ∪ stops others := by
  ext p
  simp [stops, or_and_right, exists_or]

/-- The place in a file from the first beginning of locations to their last end. -/
structure Hull (locations : List Location) (place : Span) : Prop where
  inFile : ∀ location ∈ locations, location.fileName = place.fileName
  start_isLeast : IsLeast (starts locations) place.start
  stop_isGreatest : IsGreatest (stops locations) place.stop

namespace Hull

variable {place place' : Span}

theorem single
    (location : Location) :
    Hull [location] location.span := by
  refine ⟨by simp [fileName], ?_, ?_⟩
  · simp [starts]
  · simp [stops]

/-- The hulls of two parts have the hull of both parts around them. -/
theorem append
    (left : Hull locations a.span)
    (right : Hull others b.span)
    (same : a.fileName = b.fileName) :
    Hull (locations ++ others) (a.around b).span := by
  refine ⟨?_, ?_, ?_⟩
  · intro location there
    rcases List.mem_append.mp there with there | there
    · exact left.inFile location there
    · exact (right.inFile location there).trans same.symm
  · rw [starts_append, start_around]
    exact left.start_isLeast.union right.start_isLeast
  · rw [stops_append, stop_around]
    exact left.stop_isGreatest.union right.stop_isGreatest

theorem of_perm
    (hull : Hull locations place)
    (perm : locations.Perm others) :
    Hull others place := by
  refine ⟨fun location there => hull.inFile location (perm.mem_iff.mpr there), ?_, ?_⟩
  · simpa only [starts, perm.mem_iff] using hull.start_isLeast
  · simpa only [stops, perm.mem_iff] using hull.stop_isGreatest

theorem nonempty
    (hull : Hull locations place) :
    ∃ location, location ∈ locations := by
  obtain ⟨location, there, _⟩ := hull.start_isLeast.1
  exact ⟨location, there⟩

theorem unique
    (hull : Hull locations place)
    (hull' : Hull locations place') :
    place = place' := by
  obtain ⟨location, there⟩ := hull.nonempty
  have sameFile := (hull.inFile location there).symm.trans (hull'.inFile location there)
  have sameStart := hull.start_isLeast.unique hull'.start_isLeast
  have sameStop := hull.stop_isGreatest.unique hull'.stop_isGreatest
  cases place
  cases place'
  cases sameFile
  cases sameStart
  cases sameStop
  rfl

theorem inside
    (hull : Hull locations place) :
    ∀ location ∈ locations, location.Inside (known place) := by
  intro location there
  exact ⟨hull.inFile location there, hull.start_isLeast.2 ⟨location, there, rfl⟩,
    hull.stop_isGreatest.2 ⟨location, there, rfl⟩⟩

/-- Whatever all locations are inside of, their hull is inside of it, too. -/
theorem least
    {outer : Location}
    (hull : Hull locations place)
    (around : ∀ location ∈ locations, location.Inside outer) :
    (known place).Inside outer := by
  obtain ⟨first, isFirst, starts⟩ := hull.start_isLeast.1
  obtain ⟨last, isLast, stops⟩ := hull.stop_isGreatest.1
  refine ⟨?_, ?_, ?_⟩
  · exact (hull.inFile first isFirst).symm.trans (around first isFirst).fileName_eq
  · exact starts ▸ (around first isFirst).start_le
  · exact stops ▸ (around last isLast).stop_le

/-- To cover one of the locations once more changes nothing. -/
theorem absorbs
    (hull : Hull locations whole.span) :
    ∀ location ∈ locations,
      whole.combine? location = some (known whole.span) ∧
      location.combine? whole = some (known whole.span) := by
  intro location there
  have same : location.fileName = whole.fileName := hull.inFile location there
  have start := hull.start_isLeast.2 ⟨location, there, rfl⟩
  have stop := hull.stop_isGreatest.2 ⟨location, there, rfl⟩
  rw [combine?_of_sameFile same, combine?_of_sameFile same.symm, around, around, same,
    min_eq_left start, min_eq_right start, max_eq_left stop, max_eq_right stop]
  exact ⟨rfl, rfl⟩

end Hull

/-- An order in which locations are covered, with brackets around any two parts. -/
inductive Grouping where
  | single (location : Location)
  | pair (left right : Grouping)

namespace Grouping

/-- The locations from left to right. -/
def leaves : Grouping → List Location
  | single location => [location]
  | pair left right => left.leaves ++ right.leaves

/-- What covers all locations, unless two parts that are put together are in different files. -/
def combined? : Grouping → Option Location
  | single location => some location
  | pair left right => do
      let a ← left.combined?
      let b ← right.combined?
      a.combine? b

theorem combined?_pair
    (left right : Grouping) :
    (left.pair right).combined? =
      left.combined?.bind fun a => right.combined?.bind fun b => a.combine? b :=
  rfl

/-- More locations, each of them put to all that is before it. -/
def extend (grouping : Grouping) (more : List Location) : Grouping :=
  more.foldl (fun front location => front.pair (single location)) grouping

theorem leaves_extend
    (grouping : Grouping)
    (more : List Location) :
    (grouping.extend more).leaves = grouping.leaves ++ more := by
  induction more generalizing grouping with
  | nil => exact (List.append_nil _).symm
  | cons location more ih =>
      refine (ih (grouping.pair (single location))).trans ?_
      simp [leaves]

/-- To extend a grouping is to go on with a fold from the left. -/
theorem combined?_extend
    (grouping : Grouping)
    (more : List Location) :
    (grouping.extend more).combined? =
      grouping.combined?.bind fun whole => more.foldlM combine? whole := by
  induction more generalizing grouping with
  | nil =>
      change grouping.combined? = _
      cases grouping.combined? <;> rfl
  | cons location more ih =>
      refine (ih (grouping.pair (single location))).trans ?_
      rw [combined?_pair]
      cases grouping.combined? <;> rfl

variable {grouping : Grouping}

/-- Locations of one file are covered by their hull, whatever the brackets are. -/
theorem exists_hull
    (inFile : ∀ location ∈ grouping.leaves, location.fileName = file) :
    ∃ whole, grouping.combined? = some whole ∧ Hull grouping.leaves whole.span := by
  induction grouping with
  | single location => exact ⟨location, rfl, .single location⟩
  | pair left right ihLeft ihRight =>
      obtain ⟨inLeft, inRight⟩ := List.forall_mem_append.mp inFile
      obtain ⟨a, combinedLeft, hullLeft⟩ := ihLeft inLeft
      obtain ⟨b, combinedRight, hullRight⟩ := ihRight inRight
      obtain ⟨x, isLeft⟩ := hullLeft.nonempty
      obtain ⟨y, isRight⟩ := hullRight.nonempty
      have same : a.fileName = b.fileName := by
        rw [fileName, ← hullLeft.inFile x isLeft, inLeft x isLeft, ← inRight y isRight,
          hullRight.inFile y isRight, fileName]
      refine ⟨a.around b, ?_, hullLeft.append hullRight same⟩
      simp only [combined?, combinedLeft, combinedRight]
      exact combine?_of_sameFile same

end Grouping

/--
What covers some locations of one file is the same for every order and every bracketing of them.
It begins with the first of them to begin and ends with the last to end, so that it is the least
location that they all are inside of, and to cover one of them once more changes nothing. Two
locations are not covered exactly if they are in different files.
-/
theorem combined_is_hull :
    (∀ file locations,
      locations ≠ [] → (∀ location ∈ locations, location.fileName = file) →
      ∃ whole : Span,
        whole.fileName = file ∧
        IsLeast {p | ∃ location ∈ locations, location.span.start = p} whole.start ∧
        IsGreatest {p | ∃ location ∈ locations, location.span.stop = p} whole.stop ∧
        (∀ location ∈ locations, location.Inside (known whole)) ∧
        (∀ outer, (∀ location ∈ locations, location.Inside outer) → (known whole).Inside outer) ∧
        (∀ grouping : Grouping, grouping.leaves.Perm locations →
          ∃ combined,
            grouping.combined? = some combined ∧ combined.span = whole ∧
            ∀ location ∈ locations,
              combined.combine? location = some (known whole) ∧
              location.combine? combined = some (known whole)) ∧
        ∀ first rest, (first :: rest).Perm locations →
          ∃ combined, rest.foldlM combine? first = some combined ∧ combined.span = whole) ∧
    ∀ a b : Location, a.combine? b = none ↔ a.fileName ≠ b.fileName := by
  refine ⟨fun file locations nonempty inFile => ?_, fun a b => combine?_eq_none_iff⟩
  have covered (grouping : Grouping) (perm : grouping.leaves.Perm locations) :
      ∃ combined, grouping.combined? = some combined ∧ Hull locations combined.span := by
    obtain ⟨combined, isCombined, hull⟩ :=
      Grouping.exists_hull fun location there => inFile location (perm.mem_iff.mp there)
    exact ⟨combined, isCombined, hull.of_perm perm⟩
  have folded (first : Location) (rest : List Location) (perm : (first :: rest).Perm locations) :
      ∃ combined, rest.foldlM combine? first = some combined ∧ Hull locations combined.span := by
    have extended := covered ((Grouping.single first).extend rest)
      (by rw [Grouping.leaves_extend]; exact perm)
    rwa [Grouping.combined?_extend] at extended
  obtain ⟨first, rest, rfl⟩ := List.exists_cons_of_ne_nil nonempty
  obtain ⟨whole, _, hull⟩ := folded first rest (.refl _)
  refine ⟨whole.span, ?_, hull.start_isLeast, hull.stop_isGreatest, hull.inside,
    fun outer => hull.least, fun grouping perm => ?_, fun other others perm => ?_⟩
  · exact (hull.inFile first List.mem_cons_self).symm.trans (inFile first List.mem_cons_self)
  · obtain ⟨combined, isCombined, hull'⟩ := covered grouping perm
    have same := hull'.unique hull
    exact ⟨combined, isCombined, same, same ▸ hull'.absorbs⟩
  · obtain ⟨combined, isCombined, hull'⟩ := folded other others perm
    exact ⟨combined, isCombined, hull'.unique hull⟩

/-- The second of three locations begins first, and the last one ends before it begins. -/
theorem combined_is_hull_three :
    let a := ofPositions "sum" ⟨2, 1⟩ ⟨2, 3⟩
    let b := ofPositions "sum" ⟨1, 5⟩ ⟨1, 9⟩
    let c := ofPositions "sum" ⟨3, 2⟩ ⟨1, 1⟩
    (∃ combined,
      ((Grouping.single c).pair ((Grouping.single a).pair (.single b))).combined? = some combined ∧
      combined.span = ⟨"sum", ⟨1, 5⟩, ⟨2, 3⟩⟩ ∧
      ∃ again, combined.combine? c = some again ∧ again.span = combined.span) ∧
    a.combine? (.startOf "product") = none := by
  intro a b c
  obtain ⟨covers, differ⟩ := combined_is_hull
  obtain ⟨whole, _, _, _, _, _, groups, folds⟩ :=
    covers "sum" [a, b, c] (by simp) (by simp [a, b, c, ofPositions, fileName, span])
  refine ⟨?_, (differ _ _).mpr (by decide)⟩
  -- One location after the other is covered here, and by the theorem that is the place of all.
  have inOrder : [b, c].foldlM combine? a = some (ofPositions "sum" ⟨1, 5⟩ ⟨2, 3⟩) := by
    rfl
  obtain ⟨folded, isFolded, isWhole⟩ := folds a [b, c] (.refl _)
  cases inOrder.symm.trans isFolded
  cases isWhole
  obtain ⟨combined, isCombined, same, absorbs⟩ :=
    groups ((Grouping.single c).pair ((Grouping.single a).pair (.single b)))
      (show List.Perm ([c] ++ [a, b]) ([a, b] ++ [c]) from List.perm_append_comm)
  exact ⟨combined, isCombined, same, _, (absorbs c (by simp)).1, same.symm⟩

end Location
end Precedence
