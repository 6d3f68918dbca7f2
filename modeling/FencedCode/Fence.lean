import FencedCode.Text.Blank

/-!
# Code fences

A fence is a line that opens with three or more backticks or tildes. It is closed by a line of at
least as many of the same character and nothing else; blanks around either line do not count.

Section 4.4 of the specification, the closing fence.
-/

namespace FencedCode

/-- The two characters that fences are made of. -/
inductive FenceMark
  | backtick
  | tilde
  deriving DecidableEq, Repr

namespace FenceMark

/-- The character a fence with this mark is made of. -/
def char : FenceMark → Char
  | backtick => '`'
  | tilde => '~'

/-- The mark that a character makes. -/
def ofChar? (c : Char) : Option FenceMark :=
  if c = '`' then some backtick else if c = '~' then some tilde else none

/-- The character of a mark is read back as the mark. -/
theorem ofChar?_char (m : FenceMark) : ofChar? m.char = some m := by
  cases m <;> rfl

end FenceMark

/-- An opening fence. -/
structure Fence where
  mark : FenceMark
  length : Nat
  deriving DecidableEq, Repr

namespace Fence

/-- The least number of characters in a fence. -/
def minLength : Nat := 3

/-- Length of the run of `c` at the start of a text. -/
def runLength (c : Char) (cs : List Char) : Nat := (cs.takeWhile (· == c)).length

/-- The fence that a line opens. -/
def opening? (line : List Char) : Option Fence :=
  let cs := Text.trimStart line
  match cs with
  | [] => none
  | c :: _ =>
    (FenceMark.ofChar? c).bind fun mark ↦
      let n := runLength c cs
      if minLength ≤ n then some ⟨mark, n⟩ else none

/-- Whether a line closes the fence. -/
def closedBy (f : Fence) (line : List Char) : Bool :=
  let cs := Text.trim line
  let n := runLength f.mark.char cs
  f.length ≤ n && (cs.drop n).all Text.isBlank

end Fence

end FencedCode
