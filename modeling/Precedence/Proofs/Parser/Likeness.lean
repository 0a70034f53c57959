import Precedence.Proofs.Parser.Correspondence

/-!
# Runs that differ in locations only

A parser may be replaced by another one that matches the same tokens with the same values and
fails with the same failures, although its matches have other locations. The runs of both at one
place correspond (`Correspondence.likeness`), and so do those of what is put together of such
parsers, if the actions do not look at locations. Locations are still covered by wider ones on
the way, which is a fault unless both are in one file; so all of them have to lie in the file of
the tokens.
-/

namespace Precedence

variable {origin : Reader}
variable {file : String}

/-- One place among the tokens of a file; the locations of matches may differ within the file. -/
def Correspondence.likeness (inFile : origin.InFile file) : Correspondence where
  places place place' := place = place' ∧ origin.SameTokens place
  sites here there := here = there ∧ here.fileName = file
  spots here there := here.fileName = file ∧ there.fileName = file
  next := by
    rintro place _ ⟨rfl, placeIn⟩
    cases moved : place.next? with
    | none => exact .none
    | some step =>
        have passes := Reader.Passes.of_next? moved
        have tokenIn := (inFile.of_sameTokens placeIn).head passes.rest_eq
        exact .some ⟨⟨rfl, rfl, rfl, tokenIn⟩, rfl, placeIn.of_passes passes⟩
  location := by
    rintro place _ ⟨rfl, placeIn⟩
    exact ⟨rfl, (inFile.of_sameTokens placeIn).location⟩
  single := by
    rintro here _ ⟨rfl, hereIn⟩
    exact ⟨hereIn, hereIn⟩
  combine := by
    rintro a a' b b' ⟨aIn, aIn'⟩ ⟨bIn, bIn'⟩
    obtain ⟨wider, covered, widerIn⟩ := Location.exists_combine? aIn bIn
    obtain ⟨wider', covered', widerIn'⟩ := Location.exists_combine? aIn' bIn'
    rw [covered, covered']
    exact .some ⟨widerIn, widerIn'⟩

end Precedence
