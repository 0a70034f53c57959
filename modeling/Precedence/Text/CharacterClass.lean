/-!
# Blank characters and decimal digits

The characters that Unicode counts as white space, with the removal of a blank margin, and
the decimal digits of all scripts.

* `isBlank` is the class of white space, which is larger than the six ASCII blanks: the
  four information separators, the next-line character, the no-break space and the
  typographic spaces belong to it; the zero-width space does not.
* `strip` removes the longest blank margin on both sides of a text.
* `digitValue?` knows the digits. Unicode lays the ten digits of a script out in one run of
  ten code points, from zero to nine, so the table holds the zeros only (Unicode 14.0).
-/

namespace Precedence
namespace Text

/-! ## Blanks -/

/-- The blank characters, as inclusive ranges of code points in ascending order. -/
def blankRanges : List (Nat × Nat) :=
  [ (0x09, 0x0d), (0x1c, 0x20), (0x85, 0x85), (0xa0, 0xa0), (0x1680, 0x1680),
    (0x2000, 0x200a), (0x2028, 0x2029), (0x202f, 0x202f), (0x205f, 0x205f),
    (0x3000, 0x3000) ]

/-- A character is blank when its code point lies in one of the blank ranges. -/
def isBlank (c : Char) : Bool :=
  blankRanges.any fun range => range.1 ≤ c.toNat && c.toNat ≤ range.2

/-- A text is blank when all its characters are; the empty text is. -/
def allBlank (text : String) : Bool :=
  text.toList.all isBlank

/-- The characters between the blank margins. -/
def stripChars (chars : List Char) : List Char :=
  ((chars.dropWhile isBlank).reverse.dropWhile isBlank).reverse

/-- The text between the blank margins. -/
def strip (text : String) : String :=
  String.ofList (stripChars text.toList)

/-! ## Digits -/

/-- The code points of the digit zero in every script, ascending. -/
def digitZeros : List Nat :=
  [
    0x30, 0x660, 0x6f0, 0x7c0, 0x966, 0x9e6, 0xa66, 0xae6, 0xb66, 0xbe6, 0xc66, 0xce6, 0xd66,
    0xde6, 0xe50, 0xed0, 0xf20, 0x1040, 0x1090, 0x17e0, 0x1810, 0x1946, 0x19d0, 0x1a80, 0x1a90,
    0x1b50, 0x1bb0, 0x1c40, 0x1c50, 0xa620, 0xa8d0, 0xa900, 0xa9d0, 0xa9f0, 0xaa50, 0xabf0,
    0xff10, 0x104a0, 0x10d30, 0x11066, 0x110f0, 0x11136, 0x111d0, 0x112f0, 0x11450, 0x114d0,
    0x11650, 0x116c0, 0x11730, 0x118e0, 0x11950, 0x11c50, 0x11d50, 0x11da0, 0x16a60, 0x16ac0,
    0x16b50, 0x1d7ce, 0x1d7d8, 0x1d7e2, 0x1d7ec, 0x1d7f6, 0x1e140, 0x1e2f0, 0x1e950, 0x1fbf0 ]

/-- The value of a decimal digit of any script. -/
def digitValue? (c : Char) : Option Nat :=
  (digitZeros.find? fun first => first ≤ c.toNat && c.toNat ≤ first + 9).map (c.toNat - ·)

end Text
end Precedence
