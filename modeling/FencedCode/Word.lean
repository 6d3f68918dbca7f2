/-!
# Machine words

Lines, columns and offsets are kept in words of 64 bits. A sum or a difference that leaves the range
of a word wraps around. Columns are also subtracted from each other, and are then read in two's
complement.
-/

namespace FencedCode

/-- A number as a word holds it. -/
def word (n : Nat) : Nat := n % UInt64.size

/-- An integer as a word read in two's complement holds it. -/
def signedWord (n : Int) : Int := Int.bmod n UInt64.size

/-- Half the range of a word, which is `2 ^ 63`: where two's complement turns negative. -/
def signedLimit : Nat := UInt64.size / 2

/-- A quarter of the range of a word, which is `2 ^ 62`: numbers below it can be added and
subtracted in two's complement, in any order. -/
def sumLimit : Nat := UInt64.size / 4

/-- A number in the range of a word is held as it is. -/
theorem word_eq {n : Nat} (hn : n < UInt64.size) : word n = n := Nat.mod_eq_of_lt hn

/-- And so is an integer in the range of two's complement. -/
theorem signedWord_eq {n : Int} (hlow : -(signedLimit : Int) ≤ n) (hhigh : n < signedLimit) :
    signedWord n = n := by
  unfold signedLimit UInt64.size at hlow hhigh
  unfold signedWord UInt64.size
  exact Int.bmod_eq_of_le (by omega) (by omega)

/-- No number is held as a greater integer. -/
theorem signedWord_natCast_le (n : Nat) : signedWord n ≤ n := by
  unfold signedWord UInt64.size
  rw [Int.bmod_def]
  omega

end FencedCode
