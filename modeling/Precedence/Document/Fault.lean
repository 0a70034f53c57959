import Precedence.Environment
import Precedence.Number.Numeral

/-!
# Faults of documents

A text that is no document is *malformed*, whatever the reason. Other faults are no matter
of form: a number that is written as it should be, and yet cannot be computed with.
-/

namespace Precedence
namespace Document

/-- Why a text has no value as a document. -/
inductive Fault where
  /-- The text is not the text of a document. -/
  | malformed
  /--
  An escape names a number that is no code point. The place is the number of characters up
  to the end of the escape.
  -/
  | noCodePoint (number : Nat) (place : Nat)
  /-- An integer cannot be read. -/
  | numeral (error : Numeral.Error)
  /-- A double in base sixty has so many places that the highest has no weight. -/
  | tooManyPlaces
deriving DecidableEq

namespace Fault

/-- Whether an escape names a number that does not even fit a machine word of 32 bits. -/
def isOversized (number : Nat) : Bool :=
  Nat.pow 2 31 ≤ number

/-- What a fault is for the program that asks for the document. -/
def readError : Fault → ReadError
  | malformed => .malformed "the text is not the text of a document"
  | noCodePoint number _ =>
      if isOversized number then
        .other "OverflowError" "Python int too large to convert to C int"
      else
        .other "ValueError" "chr() arg not in range(0x110000)"
  | numeral error => .other "ValueError" error.message
  | tooManyPlaces => .other "OverflowError" "int too large to convert to float"

end Fault

/-- What may have a fault in place of a value. -/
abbrev Attempt := Except Fault

/-- What is not there is malformed. -/
def Attempt.ofOption {α : Type} : Option α → Attempt α
  | some value => .ok value
  | none => .error .malformed

/-- The text is not the text of a document. -/
def refuse {α : Type} : Attempt α :=
  .error .malformed

end Document
end Precedence
