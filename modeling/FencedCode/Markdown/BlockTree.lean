import FencedCode.Markdown.Leaf
import FencedCode.Markdown.OpenContainers

/-!
# Block trees

The block structure of a whole text, read line by line: a line continues some of the open
containers, ends the others, and may open new ones; what is left of it starts a block that reads the
lines it takes up.
-/

namespace FencedCode.Markdown

/-- What is left of a line after the containers that it opens. -/
inductive LineRest
  /-- Nothing; the next line starts at a cursor. -/
  | ended (next : Cursor)
  /-- A paragraph, whatever it looks like. -/
  | paragraph (start : Cursor)
  | content (margin : Margin)

namespace OpenContainers

/-- The item at a place in the margin whose blanks took `indent` columns, opened: what is left of
the line after its marker. A task marker starts a paragraph. -/
def openItem? (o : OpenContainers) (indent : Nat) (m : Margin) :
    Option (OpenContainers × LineRest) := do
  let (mark, content, after) ← m.takeListMark? indent
  let start := m.cursor.offset - indent
  let o := (o.continueList start mark).push (.item content) start
  let ended (c : Cursor) : OpenContainers × LineRest :=
    let next := c.afterBlankLine
    ({ o with emptyItem := some next.offset }, .ended next)
  if isBlankLine after.rest then return ended after.cursor
  match after.takeTaskMark? with
  | none => return (o, .content after)
  | some task =>
    if isBlankLine task.rest then return ended task.cursor
    else return (o, .paragraph (task.cursor.skip (spacingLength task.rest)))

/-- The containers that start in the margin of a line, opened; the line starts at the offset
`start`. -/
def openNew (start : Nat) : Nat → OpenContainers → Margin → OpenContainers × LineRest
  | 0, o, m => (o, .content m)
  | fuel + 1, o, m =>
    let (indent, inner) := m.takeUpTo 4
    if 4 ≤ indent then (o, .content m)
    else
      match o.openItem? indent inner with
      | some (o, .content after) => openNew start fuel o after
      | some (o, rest) => (o, rest)
      | none =>
        match inner.takeQuoteMark? with
        | some after =>
          openNew start fuel ((o.endList start).push .quote inner.cursor.offset) after
        | none => (o, .content m)

/-- The paragraph at a cursor with all its lines. A list before it ends where it starts. -/
def readText (o : OpenContainers) (c : Cursor) : OpenContainers × Cursor :=
  let o := o.endList c.offset
  let (block, next) := readParagraph o.path c
  (o.add block, next)

/-- The block at a cursor that is neither a container nor an indented code block, read after blanks
of `indent` columns, `owed` columns of which may stem from a tab, on a line that starts at the
offset `start`. A list before it ends with the line above, unless the block is a paragraph. -/
def readBlock (o : OpenContainers) (start owed indent : Nat) (c : Cursor) :
    OpenContainers × Cursor :=
  let ended := o.endList start
  let path := ended.path
  match htmlStart? c.rest with
  | some ending =>
    let (block, next) := readHtml path ending (max owed indent) c
    (ended.add block, next)
  | none =>
  match ruleLength? c.rest with
  | some n =>
    let next := c.skip n
    (ended.add (.rule ⟨c.offset, next.offset⟩), next)
  | none =>
  match headingLevel? c.rest with
  | some level =>
    let (block, next) := readHeading level c
    (ended.add block, next)
  | none =>
  match Definition.read? path c.rest with
  | some (label, rest) =>
    ({ ended with labels := label :: ended.labels }, (c.upTo rest).afterBlankLine)
  | none =>
  match fenceStart? c.rest with
  | some (mark, n) =>
    let (block, next) := readFenced path indent mark n c
    (ended.add block, next)
  | none => o.readText c

/-- The rest of a line that starts at the offset `start`, from its margin on, with all the lines
that its block takes up. -/
def readContent (o : OpenContainers) (start : Nat) (m : Margin) : OpenContainers × Cursor :=
  if isBlankLine m.rest then (o.addBlank, m.cursor.afterBlankLine)
  else
    let (indent, inner) := m.takeUpTo 4
    if indent = 4 then
      let o := o.endList start
      let (block, next, afterBlank) := readIndented o.path inner.owed inner.cursor
      ({ o.add block with afterBlank }, next)
    else o.readBlock start m.owed indent inner.cursor

/-- The line at a cursor, with all the lines that its block takes up. -/
def readLine (o : OpenContainers) (c : Cursor) : OpenContainers × Cursor :=
  let (left, m) := (Margin.ofCursor c).continueAll o.path
  let (o, rest) := openNew c.offset (c.rest.length + 1) (closeMany c.offset left.length o) m
  match rest with
  | .ended next => (o, next)
  | .paragraph start => o.readText start
  | .content m => o.readContent c.offset m

/-- All lines from a cursor on, at most `fuel` blocks and blank lines. -/
def readLines : Nat → OpenContainers → Cursor → OpenContainers × Cursor
  | 0, o, c => (o, c)
  | fuel + 1, o, c =>
    if c.rest.isEmpty then (o, c)
    else
      let (o, c) := o.readLine c
      readLines fuel o c

end OpenContainers

/-- The block structure of a text. -/
structure BlockTree where
  blocks : List Block
  /-- The labels of the link definitions. -/
  labels : List (List Char)

/-- The block structure of a text. -/
def BlockTree.ofText (text : List Char) : BlockTree :=
  let (o, stop) := OpenContainers.readLines (text.length + 1) {} { rest := text }
  ⟨o.finish stop.offset, o.labels⟩

end FencedCode.Markdown
