import FencedCode.Text.Alphabetic
import FencedCode.Text.Number
import FencedCode.Text.Punctuation

/-!
# Classes of characters

Word characters, characters of names, and punctuation. Each class is decided by comparison for
ASCII and looked up in the tables of Unicode properties beyond it.
-/

namespace FencedCode.Text

/-- Whether one of the ranges holds a code point. -/
def inRanges (ranges : List (Nat × Nat)) (n : Nat) : Bool :=
  ranges.any fun (first, last) ↦ first ≤ n && n ≤ last

/-- The characters that words are made of: alphabetic characters, marks, decimal digits, connecting
punctuation and the two joiners. -/
def isWord (c : Char) : Bool :=
  let n := c.toNat
  if n < 0x80 then c.isAlphanum || c == '_'
  else inRanges alphabeticRanges n || inRanges markRanges n || inRanges decimalRanges n ||
    inRanges connectorRanges n || n == 0x200C || n == 0x200D

/-- Alphabetic characters and numbers of every kind. -/
def isAlphanumeric (c : Char) : Bool :=
  let n := c.toNat
  if n < 0x80 then c.isAlphanum
  else inRanges alphabeticRanges n || inRanges decimalRanges n || inRanges otherNumberRanges n

/-- The punctuation and the symbols of ASCII. -/
def isAsciiPunctuation (c : Char) : Bool :=
  let n := c.toNat
  (0x21 ≤ n && n ≤ 0x2F) || (0x3A ≤ n && n ≤ 0x40) || (0x5B ≤ n && n ≤ 0x60) ||
    (0x7B ≤ n && n ≤ 0x7E)

/-- Punctuation and symbols. -/
def isPunctuation (c : Char) : Bool :=
  if c.toNat < 0x80 then isAsciiPunctuation c else inRanges punctuationRanges c.toNat

end FencedCode.Text
