import FencedCode.Markdown.Block
import FencedCode.Markdown.Definition

/-!
# Blocks without blocks inside

Reading code blocks, HTML blocks, headings, paragraphs and tables, each from a cursor at its first
character. A reader gives the block and the cursor at which the next one is looked for; `path` is
the containers that the block lies in, from the outermost on.
-/

namespace FencedCode.Markdown

/-- The cursor after the blanks and the ending of a line, if nothing else is left on it. -/
def Cursor.afterBlankLine (c : Cursor) : Cursor := c.skip ((blankLineLength? c.rest).getD 0)

/-- The content of a fenced code block from the line at a cursor on: its pieces after those in
`pieces`, which has the last one first, the offset at which the block ends, and the cursor after it.
Up to `indent` columns of blanks are dropped from each line. -/
def fencedLines (path : List Container) (indent : Nat) (mark : Char) (length : Nat) :
    Nat → List Piece → Cursor → List Piece × Nat × Cursor
  | 0, pieces, c => (pieces.reverse, c.offset, c)
  | fuel + 1, pieces, c =>
    let (continues, m) := lineStart path c
    if !continues then (pieces.reverse, c.offset, c)
    else
      let m := (m.take indent).2
      let (missing, closing) := m.take (4 - indent)
      match if missing = 0 then none else fenceEnd? mark length closing.rest with
      | some n =>
        let stop := closing.cursor.skip n
        (pieces.reverse, stop.offset, stop.afterBlankLine)
      | none =>
        let line := rawLine m.rest
        let piece := Piece.ofLine false m.owed m.cursor line
        fencedLines path indent mark length fuel (piece.reverse ++ pieces)
          (m.cursor.skip line.length)

/-- The fenced code block at a cursor. -/
def readFenced (path : List Container) (indent : Nat) (mark : Char) (length : Nat) (c : Cursor) :
    Block × Cursor :=
  let line := rawLine (c.rest.drop length)
  let info := (line.dropWhile isSpacing).reverse.dropWhile fun x ↦ isSpacing x || isEnding x
  let (pieces, stop, next) :=
    fencedLines path indent mark length (c.rest.length + 2) [] (c.skip (length + line.length))
  (.code (some (unescape info.reverse)) ⟨c.offset, stop⟩ pieces, next)

/-- An indented code block under way: its pieces up to the last line that is not blank, the offset
after that line, the pieces of the blank lines since then, and the cursor after the last line. -/
structure IndentedLines where
  pieces : List Piece := []
  stop : Nat := 0
  blank : List Piece := []
  next : Cursor

/-- One more line of an indented code block. -/
def IndentedLines.add (l : IndentedLines) (owed : Nat) (c : Cursor) : IndentedLines :=
  let line := rawLine c.rest
  let next := c.skip line.length
  let piece := Piece.ofLine false owed c line
  if isBlankLine c.rest then { l with blank := l.blank ++ piece, next }
  else ⟨l.pieces ++ l.blank ++ piece, next.offset, [], next⟩

/-- The lines of an indented code block from the one after `l` on. -/
def indentedLines (path : List Container) : Nat → IndentedLines → IndentedLines
  | 0, l => l
  | fuel + 1, l =>
    let (continues, m) := lineStart path l.next
    let (missing, m) := m.take 4
    if continues && (missing = 0 || m.atEnding) && !m.rest.isEmpty then
      indentedLines path fuel (l.add m.owed m.cursor)
    else l

/-- The indented code block at a cursor, after `owed` columns of blanks; says also whether its last
line was blank. -/
def readIndented (path : List Container) (owed : Nat) (c : Cursor) : Block × Cursor × Bool :=
  let l := indentedLines path c.rest.length (IndentedLines.add { next := c } owed c)
  (.code none ⟨c.offset, l.stop⟩ l.pieces, l.next, !l.blank.isEmpty)

/-- When a block of HTML ends. -/
inductive HtmlEnd
  /-- After a line that holds a given text. -/
  | marked (stop : List Char)
  /-- Before a blank line. -/
  | blank

/-- The lines of an HTML block from a cursor on, after `owed` columns of blanks: its pieces, the
offset at which it ends, and the cursor after it. -/
def htmlLines (path : List Container) (ending : HtmlEnd) :
    Nat → List Piece → Nat → Cursor → List Piece × Nat × Cursor
  | 0, pieces, _, c => (pieces, c.offset, c)
  | fuel + 1, pieces, owed, c =>
    let line := rawLine c.rest
    let pieces := pieces ++ Piece.ofLine true owed c line
    let next := c.skip line.length
    let (continues, m) := lineStart path next
    if !continues then (pieces, next.offset, next)
    else
      match ending with
      | .marked stop =>
        if (indexOf? stop line).isSome then (pieces, next.offset, next)
        else if m.rest.isEmpty then (pieces, m.cursor.offset, next)
        else htmlLines path ending fuel pieces m.owed m.cursor
      | .blank =>
        if m.atEnding then (pieces, next.offset, next)
        else if isBlankLine m.rest then (pieces, m.cursor.offset, next)
        else htmlLines path ending fuel pieces m.owed m.cursor

/-- The HTML block at a cursor, after `owed` columns of blanks. -/
def readHtml (path : List Container) (ending : HtmlEnd) (owed : Nat) (c : Cursor) :
    Block × Cursor :=
  let (pieces, stop, next) := htmlLines path ending (c.rest.length + 1) [] owed c
  (.html ⟨c.offset, stop⟩ pieces, next)

/-- How the HTML block ends that the text at a cursor starts, if it starts one. -/
def htmlStart? (cs : List Char) : Option HtmlEnd :=
  match cs with
  | '<' :: rest =>
    match Html.blockEnd? rest with
    | some stop => some (.marked stop)
    | none => if Html.startsBlockTag rest || Html.isTagLine cs then some .blank else none
  | _ => none

/-- Tokens, last one first, with a backslash at a cursor as plain text after them. -/
def addBackslash (tokens : List Token) (slash : Token) : List Token :=
  match tokens with
  | ⟨.text, start, chars, source⟩ :: ts =>
    if start + Text.byteLength chars = slash.start then
      ⟨.text, start, chars ++ ['\\'], source⟩ :: ts
    else ⟨.text, slash.start, ['\\'], slash.source⟩ :: tokens
  | _ => ⟨.text, slash.start, ['\\'], slash.source⟩ :: tokens

/-- The tokens of a block's last line, last one first: the break after it does not count, but a
backslash before the line ending is plain text. -/
def lastTokens (tokens : List Token) (lineBreak : Option Token) : List Token :=
  match lineBreak with
  | some t => if t.kind = .hardBreak true then addBackslash tokens t else tokens
  | none => tokens

/-- Length in bytes of the text of a heading without the number signs that close it. -/
def headingLength (line : List Char) : Nat :=
  let text := line.reverse.dropWhile fun c ↦ isEnding c || c == ' '
  let opened := text.dropWhile (· == '#')
  let blanks := (opened.takeWhile (· == ' ')).length
  if opened.isEmpty then 0
  else if 0 < blanks then Text.byteLength (opened.drop blanks)
  else Text.byteLength text

/-- Tokens, last one first, with the last one ended at an offset. -/
def endTokensAt (stop : Nat) (tokens : List Token) : List Token :=
  match tokens with
  | [] => []
  | t :: ts =>
    let chars := Text.takeBytes (stop - t.start) t.chars
    if chars.isEmpty then ts else { t with chars } :: ts

/-- The heading of number signs at a cursor. -/
def readHeading (level : Nat) (c : Cursor) : Block × Cursor :=
  let marked := c.skip level
  let content := marked.skip (spacingLength marked.rest)
  match endingLength? content.rest with
  | some n =>
    let next := content.skip n
    (.heading ⟨c.offset, next.offset⟩ [], next)
  | none =>
    let line := lexLine .running content
    let tokens := lastTokens line.tokens line.lineBreak
    let text := content.rest.take (content.rest.length - line.next.rest.length)
    let tokens := endTokensAt (content.offset + headingLength text) tokens
    (.heading ⟨c.offset, line.next.offset⟩ tokens.reverse, line.next)

/-- The cells of a table row from a cursor on, last one first after those in `cells`, and the cursor
at the next line. -/
def rowCells : Nat → List TableCell → Cursor → List TableCell × Cursor
  | 0, cells, c => (cells, c)
  | fuel + 1, cells, c =>
    let start := if c.rest.head? = some '|' then c.next else c
    let content := start.skip (spacingLength start.rest)
    match endingLength? content.rest with
    | some n => (cells, content.skip n)
    | none =>
      let line := lexLine .cell content
      rowCells fuel (⟨⟨start.offset, line.next.offset⟩, line.tokens.reverse⟩ :: cells) line.next

/-- The table row at a cursor, brought to a number of columns: cells that are missing are empty, and
cells that are too many are dropped. -/
def readRow (columns : Nat) (c : Cursor) : TableRow × Cursor × Bool :=
  let (cells, next) := rowCells (c.rest.length + 1) [] c
  let missing := List.replicate (columns - cells.length) ⟨⟨next.offset, next.offset⟩, []⟩
  (⟨⟨c.offset, next.offset⟩, cells.reverse.take columns ++ missing⟩, next, cells.isEmpty)

/-- The rows of a table's body from a line on, and the cursor after them. -/
def bodyRows (path : List Container) (columns : Nat) : Nat → Cursor → List TableRow × Cursor
  | 0, c => ([], c)
  | fuel + 1, c =>
    let (continues, m) := lineStart path c
    let m := m.takeAll
    if !continues || startsBlock continues true m.rest then ([], c)
    else
      let (row, next, isEmpty) := readRow columns m.cursor
      if isEmpty then ([], c)
      else
        let (rows, stop) := bodyRows path columns fuel next
        (row :: rows, stop)

/-- The table at a cursor with the given columns, whose body is the text in `body`. -/
def readTable (path : List Container) (columns : Nat) (body : List Char) (c : Cursor) :
    Block × Cursor :=
  let (head, _, _) := readRow columns c
  let (rows, next) := bodyRows path columns body.length (c.upTo body)
  (.table ⟨c.offset, next.offset⟩ (head :: rows), next)

/-- The paragraph at a cursor, or the heading that an underline makes of it; `start` is the offset
of its first line, and `tokens` holds the tokens of the lines before, last one first. -/
def paragraphLines (path : List Container) (start : Nat) :
    Nat → List Token → Cursor → Block × Cursor
  | 0, tokens, c => (.paragraph ⟨start, c.offset⟩ tokens.reverse, c)
  | fuel + 1, tokens, c =>
    let line := lexLine .running c
    let tokens := line.tokens ++ tokens
    let closed := (lastTokens tokens line.lineBreak).reverse
    let (continues, m) := lineStart path line.next
    let (missing, m) := m.take 4
    let underline := if missing = 0 || !continues then none else underlineLength? m.rest
    match underline with
    | some n =>
      let next := m.cursor.skip n
      (.heading ⟨start, next.offset⟩ closed, next)
    | none =>
      let rest := m.takeAll
      if (missing ≠ 0 && interruptsParagraph path continues m.rest) || rest.atEnding then
        (.paragraph ⟨start, line.next.offset⟩ closed, line.next)
      else
        paragraphLines path start fuel (line.lineBreak.toList ++ tokens) rest.cursor

/-- The paragraph at a cursor, or the table or heading that its lines turn out to be. -/
def readParagraph (path : List Container) (c : Cursor) : Block × Cursor :=
  match tableHead? path c.rest with
  | some (columns, body) => readTable path columns body c
  | none => paragraphLines path c.offset (c.rest.length + 1) [] c

end FencedCode.Markdown
