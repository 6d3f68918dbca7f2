import FencedCode.Markdown.Container
import FencedCode.Text.Numeral
import FencedCode.Text.Word

/-!
# Starts of blocks

The line forms that start a block: thematic breaks, headings, fences and list markers, and the
underline that makes a heading of the paragraph above it.
-/

namespace FencedCode.Markdown

/-- Whether a character is one of those that thematic breaks are made of. -/
def isRuleMark (c : Char) : Bool := c == '*' || c == '-' || c == '_'

/-- Length of a thematic break with its line ending: three or more of one mark with blanks between
and nothing else. -/
def ruleLength? : List Char → Option Nat
  | [] => none
  | c :: cs =>
    let line := (c :: cs).takeWhile fun x ↦ x == c || x == ' ' || x == '\t'
    if isRuleMark c && 3 ≤ line.count c then
      (endingLength? ((c :: cs).drop line.length)).map (line.length + ·)
    else none

/-- The level of a heading that a line of number signs starts: one to six of them before a blank or
the end of the line. -/
def headingLevel? (cs : List Char) : Option Nat :=
  let n := (cs.takeWhile (· == '#')).length
  let ended := match cs.drop n with
    | [] => true
    | c :: _ => isSpacing c || isEnding c
  if 1 ≤ n && n ≤ 6 && ended then some n else none

/-- Length of the line of equals signs or hyphens that makes a heading of the paragraph above. -/
def underlineLength? : List Char → Option Nat
  | [] => none
  | c :: cs =>
    if c = '=' || c = '-' then
      let n := ((c :: cs).takeWhile (· == c)).length
      (blankLineLength? ((c :: cs).drop n)).map (n + ·)
    else none

/-- The mark and length of an opening fence. No backtick may follow a fence of backticks on its
line. -/
def fenceStart? : List Char → Option (Char × Nat)
  | [] => none
  | c :: cs =>
    let n := ((c :: cs).takeWhile (· == c)).length
    if (c = '`' || c = '~') && 3 ≤ n then
      if c = '`' && (rawLine ((c :: cs).drop n)).contains '`' then none else some (c, n)
    else none

/-- Length of what closes a fence of `n` marks: at least as many, and then blanks but no tabs up to
the end of the line. The end of the text closes every fence. -/
def fenceEnd? (mark : Char) (n : Nat) (cs : List Char) : Option Nat :=
  let k := (cs.takeWhile (· == mark)).length
  let blanks := ((cs.drop k).takeWhile (· == ' ')).length
  if cs.isEmpty then some 0
  else if n ≤ k && (endingLength? (cs.drop (k + blanks))).isSome then some (k + blanks)
  else none

/-- A list marker: what it ends in, the number before that, and the text after it. -/
structure ListMark where
  mark : Char
  number : Nat
  rest : List Char

/-- The list marker at the start of a text: a bullet, or up to nine digits and a point or a closing
parenthesis. -/
def listMark? : List Char → Option ListMark
  | [] => none
  | c :: cs =>
    if c = '-' || c = '+' || c = '*' then some ⟨c, 0, cs⟩
    else
      let ds := (c :: cs).takeWhile Char.isDigit
      match (c :: cs).drop ds.length with
      | e :: rest =>
        if 1 ≤ ds.length && ds.length ≤ 9 && (e = '.' || e = ')') then
          some ⟨e, Text.numeral 10 ds, rest⟩
        else none
      | [] => none

/-- Whether a list marker is a bullet. -/
def ListMark.isBullet (m : ListMark) : Bool := m.mark == '-' || m.mark == '+' || m.mark == '*'

/-- Whether blanks or the end of the line follow a list marker. -/
def ListMark.isSeparated (m : ListMark) : Bool :=
  match m.rest with
  | [] => true
  | c :: _ => c == ' ' || c == '\t' || isEnding c

/-- Whether a list marker has nothing on its line and a blank line or nothing after it. -/
def ListMark.startsEmpty (m : ListMark) : Bool :=
  match blankLineLength? m.rest with
  | none => false
  | some n => isBlankLine (m.rest.drop n)

/-- The list marker in the margin of a line whose blanks take `indent` columns, if there is one:
what it ends in, the indentation of the item's content, and the margin after the marker and the
blanks that belong to it. A thematic break is no list marker. -/
def Margin.takeListMark? (m : Margin) (indent : Nat) : Option (Char × Nat × Margin) := do
  if (ruleLength? m.rest).isSome then none
  let mark ← listMark? m.rest
  let width := m.rest.length - mark.rest.length
  let after : Margin := { m with
    cursor := m.cursor.skip width
    column := m.column + width }
  let (missing, after) := after.take 1
  if missing = 0 || after.atEnding then
    let indent := indent + width + 1
    if isBlankLine after.rest then return (mark.mark, indent, after)
    let (blanks, inner) := after.takeUpTo 4
    if blanks < 4 then return (mark.mark, indent + blanks, inner)
    else return (mark.mark, indent, after)
  else none

/-- The margin after a task marker and the blanks before it, if there is one: a blank or an x in
brackets, followed by a blank. -/
def Margin.takeTaskMark? (m : Margin) : Option Margin := do
  let m ← (m.takeUpTo 3).2.takeChar? '['
  match m.rest with
  | [] => none
  | c :: _ =>
    if isSpacing c || c = 'x' || c = 'X' then
      let m ← m.next.takeChar? ']'
      match m.rest with
      | c :: _ => if isSpacing c then some m else none
      | [] => none
    else none

end FencedCode.Markdown
