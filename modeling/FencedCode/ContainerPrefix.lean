import FencedCode.Text.Blank
import FencedCode.Text.Bytes

/-!
# Container prefixes

The run of quote markers and blanks that a block quote or a list item puts before the text of a
line, measured in characters and in bytes.

Section 4.1 of the specification.
-/

namespace FencedCode.ContainerPrefix

/-- The character that marks a line of a block quote. -/
def marker : Char := '>'

/-- The characters that a container prefix is made of. -/
def isMember (c : Char) : Bool := c == marker || Text.isBlank c

/-- The longest container prefix of a line. -/
def of (line : List Char) : List Char := line.takeWhile isMember

/-- Length of a line's container prefix in characters. -/
def length (line : List Char) : Nat := (of line).length

/-- Length of a line's container prefix in bytes: the offset of the first character that is no
member of one, or the length of the line when all its characters are. -/
def byteLength (line : List Char) : Nat :=
  match (Text.placeChars 0 line).find? fun placed ↦ !isMember placed.2 with
  | some (offset, _) => offset
  | none => Text.byteLength line

end FencedCode.ContainerPrefix
