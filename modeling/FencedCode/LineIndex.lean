import FencedCode.Position
import FencedCode.Text.Bytes
import FencedCode.Text.Lines

/-!
# Lines of a text

A `LineIndex` holds the lines of a text with the byte offset of each, and turns byte offsets into
positions and back. A line ends after its line feed; the text after the last line feed is a line
of its own, empty when the text ends in one, so there is always at least one line.

Section 2 of the specification, the document adapter.
-/

namespace FencedCode

/-- One line of a text: where it starts, in bytes, and its characters with its terminator. -/
structure Line where
  start : Nat
  raw : List Char
  deriving DecidableEq, Repr, Inhabited

namespace Line

/-- The byte offset just after the line. -/
def stop (l : Line) : Nat := l.start + Text.byteLength l.raw

/-- The characters before the terminator, which is a line feed with an optional carriage return
before it. A carriage return without a line feed belongs to the text. -/
def text (l : Line) : List Char :=
  match l.raw.reverse with
  | '\n' :: '\r' :: cs => cs.reverse
  | '\n' :: cs => cs.reverse
  | _ => l.raw

end Line

/-- The pieces of a text with their byte offsets, the first one at `start`. -/
def placeLines (start : Nat) : List (List Char) → List Line
  | [] => []
  | l :: ls => ⟨start, l⟩ :: placeLines (start + Text.byteLength l) ls

/-- A text with its lines. -/
structure LineIndex where
  text : List Char
  lines : List Line := placeLines 0 (Text.splitLines text)
  lines_eq : lines = placeLines 0 (Text.splitLines text) := by rfl

namespace LineIndex

/-- The lines of a text. -/
def ofText (text : List Char) : LineIndex := { text }

/-- A text has its lines in one way only. -/
theorem eq_ofText (x : LineIndex) : x = ofText x.text := by
  obtain ⟨text, lines, rfl⟩ := x
  rfl

/-- Length of the text in bytes. -/
def byteLength (x : LineIndex) : Nat := Text.byteLength x.text

/-- Number of lines, at least one. -/
def lineCount (x : LineIndex) : Nat := x.lines.length

/-- Line number `n`, counted from one. -/
def line? (x : LineIndex) (n : Nat) : Option Line :=
  match n with
  | 0 => none
  | k + 1 => x.lines[k]?

/-- The characters of line number `n` without its terminator. -/
def lineText? (x : LineIndex) (n : Nat) : Option (List Char) := (x.line? n).map Line.text

/-- The lines that hold text: all but a last empty one. -/
def occupied (x : LineIndex) : List Line := x.lines.filter fun l ↦ !l.raw.isEmpty

/-- How many characters of a text start before byte offset `n`. -/
def charsBefore (n : Nat) : List Char → Nat
  | [] => 0
  | c :: cs => if 0 < n then charsBefore (n - c.utf8Size) cs + 1 else 0

/-- The position of a byte offset. An offset past the end is taken for the end, one inside a
character or a terminator for the next place that a position can name on the line. -/
def position (x : LineIndex) (offset : Nat) : Position :=
  let offset := min offset x.byteLength
  let before := x.lines.takeWhile (·.start ≤ offset)
  match before.getLast? with
  | none => ⟨1, 1, some offset⟩
  | some l => ⟨before.length, charsBefore (offset - l.start) l.text + 1, some offset⟩

/-- The byte offset of a position, when the line exists and the column is at most one past the
line's last character. -/
def offset? (x : LineIndex) (p : Position) : Option Nat :=
  match x.line? p.line, p.column with
  | some l, k + 1 =>
    if k ≤ l.text.length then some (l.start + Text.byteLength (l.text.take k)) else none
  | _, _ => none

end LineIndex

end FencedCode
