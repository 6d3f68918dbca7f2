/-!
# Cursors

A `Cursor` is a place in a Markdown text: what is still to be read from there, the byte offset, and
the character before it. A `Margin` is a cursor in the blanks and markers at the start of a line,
where tabs stand for blanks up to the next multiple of four columns and may be taken in part.
-/

namespace FencedCode.Markdown

/-- A place in a text. -/
structure Cursor where
  before : Option Char := none
  offset : Nat := 0
  rest : List Char
  deriving Repr, Inhabited

namespace Cursor

/-- The place one character on; the same place at the end. -/
def next (c : Cursor) : Cursor :=
  match c.rest with
  | [] => c
  | x :: xs => ⟨some x, c.offset + x.utf8Size, xs⟩

/-- The place `n` characters on, or the end when there are fewer. -/
def skip : Nat → Cursor → Cursor
  | 0, c => c
  | n + 1, c => skip n c.next

/-- The place at which only the given rest of the text is left. -/
def upTo (c : Cursor) (rest : List Char) : Cursor := c.skip (c.rest.length - rest.length)

/-- The next cursor has the text without its first character. -/
theorem rest_next (c : Cursor) : c.next.rest = c.rest.drop 1 := by
  unfold next
  split
  · next h => simp [h]
  · next h => simp [h]

/-- Skipping characters drops them from the text that is left. -/
theorem rest_skip (n : Nat) (c : Cursor) : (c.skip n).rest = c.rest.drop n := by
  induction n generalizing c with
  | zero => simp [skip]
  | succ n ih => rw [skip, ih, rest_next, List.drop_drop, Nat.add_comm]

end Cursor

/-- A blank that does not end a line. -/
def isSpacing (c : Char) : Bool :=
  c == ' ' || c == '\t' || c.toNat == 0x0B || c.toNat == 0x0C

/-- A character that ends a line. -/
def isEnding (c : Char) : Bool := c == '\n' || c == '\r'

/-- How many characters end the line at the start of a text: a line feed, a carriage return or both;
none at the end of the text. -/
def endingLength? : List Char → Option Nat
  | [] => some 0
  | '\n' :: _ => some 1
  | '\r' :: '\n' :: _ => some 2
  | '\r' :: _ => some 1
  | _ => none

/-- Length of the run of spacing at the start of a text. -/
def spacingLength (cs : List Char) : Nat := (cs.takeWhile isSpacing).length

/-- How many characters there are up to the next line, when only spacing is left on this one. -/
def blankLineLength? (cs : List Char) : Option Nat :=
  let n := spacingLength cs
  (endingLength? (cs.drop n)).map (n + ·)

/-- Whether only spacing is left on a line. -/
def isBlankLine (cs : List Char) : Bool := (blankLineLength? cs).isSome

/-- A text up to and with its first line feed. -/
def rawLine : List Char → List Char
  | [] => []
  | c :: cs => if c = '\n' then [c] else c :: rawLine cs

/-- Where a text is first found in another. -/
def indexOf? (sought : List Char) : List Char → Option Nat
  | [] => if sought.isEmpty then some 0 else none
  | c :: cs =>
    if sought.isPrefixOf (c :: cs) then some 0 else (indexOf? sought cs).map (· + 1)

/-- A place in the margin of a line. -/
structure Margin where
  cursor : Cursor
  /-- The column, counted from the last tab stop. -/
  column : Nat := 0
  /-- Columns of a tab before the cursor that are not taken yet. -/
  owed : Nat := 0
  deriving Repr, Inhabited

namespace Margin

/-- The margin at the start of a line. -/
def ofCursor (c : Cursor) : Margin := { cursor := c }

/-- What is left of the line and the text. -/
def rest (m : Margin) : List Char := m.cursor.rest

/-- The margin after one more character, which is no tab. -/
def next (m : Margin) : Margin := { m with cursor := m.cursor.next, column := m.column + 1 }

/-- Take up to `n` columns of blanks from the text `cs` at the cursor; says how many were
missing. -/
def takeFrom (m : Margin) : Nat → List Char → Nat × Margin
  | 0, _ => (0, m)
  | n + 1, ' ' :: cs => takeFrom m.next n cs
  | n + 1, '\t' :: cs =>
    let width := 4 - m.column % 4
    let taken := min width (n + 1)
    takeFrom ⟨m.cursor.next, 0, width - taken⟩ (n + 1 - taken) cs
  | n + 1, _ => (n + 1, m)

/-- Take up to `n` columns of blanks, columns owed by a tab first; says how many were missing. -/
def take (m : Margin) (n : Nat) : Nat × Margin :=
  let owed := min m.owed n
  takeFrom { m with owed := m.owed - owed } (n - owed) m.rest

/-- The margin after up to `n` columns of blanks, and how many there were. -/
def takeUpTo (m : Margin) (n : Nat) : Nat × Margin :=
  let (missing, m) := m.take n
  (n - missing, m)

/-- The margin after all blanks and tabs. -/
def takeAll (m : Margin) : Margin :=
  let n := (m.rest.takeWhile fun c ↦ c == ' ' || c == '\t').length
  { m with cursor := m.cursor.skip n, column := m.column + n, owed := 0 }

/-- Whether nothing but the line's ending follows. -/
def atEnding (m : Margin) : Bool :=
  match m.rest with
  | [] => true
  | c :: _ => isEnding c

/-- The margin after a given character, when that follows. -/
def takeChar? (m : Margin) (c : Char) : Option Margin :=
  match m.rest with
  | x :: _ => if x = c then some m.next else none
  | [] => none

end Margin

end FencedCode.Markdown
