import FencedCode.Markdown.Container
import FencedCode.Markdown.Event
import FencedCode.Markdown.Token

/-!
# Blocks

The block structure of a Markdown text. Paragraphs, headings and table cells hold tokens whose
meaning is still open, because link definitions may follow them.
-/

namespace FencedCode.Markdown

/-- A piece of the content of a code or HTML block; `markup` tells HTML from plain text. -/
structure Piece where
  markup : Bool
  value : List Char
  span : Span
  deriving DecidableEq, Repr

/-- A cell of a table. -/
structure TableCell where
  span : Span
  tokens : List Token

/-- A row of a table; the first row is the head. -/
structure TableRow where
  span : Span
  cells : List TableCell

/-- A block. -/
inductive Block
  | container (kind : Container) (span : Span) (children : List Block)
  | paragraph (span : Span) (tokens : List Token)
  | heading (span : Span) (tokens : List Token)
  /-- A code block, with its info string when it is fenced. -/
  | code (info : Option (List Char)) (span : Span) (pieces : List Piece)
  | html (span : Span) (pieces : List Piece)
  | rule (span : Span)
  | table (span : Span) (rows : List TableRow)
  deriving Inhabited

/-- A line of a code or HTML block with a carriage return before its last character dropped. -/
def dropCarriage (line : List Char) : List Char :=
  match line.reverse with
  | c :: '\r' :: cs => if c.utf8Size = 1 then (c :: cs).reverse else line
  | _ => line

/-- The pieces of the line at a cursor, `line`, after `owed` columns of blanks that a tab left. -/
def Piece.ofLine (markup : Bool) (owed : Nat) (c : Cursor) (line : List Char) : List Piece :=
  let content := dropCarriage line
  let blanks : List Piece :=
    if owed = 0 then [] else [⟨false, List.replicate owed ' ', ⟨c.offset, c.offset⟩⟩]
  if content.isEmpty then blanks
  else blanks ++ [⟨markup, content, ⟨c.offset, (c.skip line.length).offset⟩⟩]

end FencedCode.Markdown
