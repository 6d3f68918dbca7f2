/-!
# Numerals

Numbers written with digits, of base sixteen at most; letters in either case count from ten.
-/

namespace FencedCode.Text

/-- The value of a digit. -/
def digitValue? (c : Char) : Option Nat :=
  if c.isDigit then some (c.toNat - 48)
  else if 'a' ≤ c && c ≤ 'f' then some (c.toNat - 87)
  else if 'A' ≤ c && c ≤ 'F' then some (c.toNat - 55)
  else none

/-- Whether a character is a digit of base sixteen. -/
def isHexDigit (c : Char) : Bool := (digitValue? c).isSome

/-- The number that digits write in a base. -/
def numeral (base : Nat) (ds : List Char) : Nat :=
  ds.foldl (fun n d ↦ base * n + (digitValue? d).getD 0) 0

end FencedCode.Text
