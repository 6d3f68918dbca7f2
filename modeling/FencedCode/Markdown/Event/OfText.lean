import FencedCode.Markdown.BlockTree
import FencedCode.Markdown.Emphasis

/-!
# The events of a text

The events of a Markdown text from its block structure: every block and every inline construct is
entered and left around what it holds. A paragraph of a tight list is neither entered nor left.
-/

namespace FencedCode.Markdown

namespace Event

/-- The events of a construct around those of what it holds. -/
def surround (tag : Tag) (span : Span) (inner : List Event) : List Event :=
  .enter tag span :: inner ++ [.leave]

mutual

/-- The events of an inline. -/
def ofInline : Inline → List Event
  | .text value span => [.text value span]
  | .code value span => [.code value span]
  | .html value span => [.inlineHtml value span]
  | .softBreak span => [.softBreak span]
  | .hardBreak _ span => [.hardBreak span]
  | .delimiters _ => []
  | .bracket _ _ => []
  | .construct tag span children => surround tag span (ofInlines children)

/-- The events of inlines, one after the other. -/
def ofInlines : List Inline → List Event
  | [] => []
  | i :: is => ofInline i ++ ofInlines is

end

/-- The event of a piece of a code or HTML block. -/
def ofPiece (p : Piece) : Event :=
  if p.markup then .html p.value p.span else .text p.value p.span

/-- The events of the running text of a block that ends at `stop`. -/
def ofTokens (labels : List (List Char)) (path : List Container) (stop : Nat) (inTable : Bool)
    (tokens : List Token) : List Event :=
  ofInlines (inlinesOf ⟨path, stop, labels, inTable⟩ tokens)

/-- The events of a table cell. -/
def ofCell (labels : List (List Char)) (path : List Container) (cell : TableCell) : List Event :=
  surround .tableCell cell.span (ofTokens labels path cell.span.stop true cell.tokens)

/-- The events of a table row. -/
def ofRow (labels : List (List Char)) (path : List Container) (tag : Tag) (row : TableRow) :
    List Event :=
  surround tag row.span (row.cells.flatMap (ofCell labels path))

/-- The events of the rows of a table. -/
def ofRows (labels : List (List Char)) (path : List Container) : List TableRow → List Event
  | [] => []
  | head :: rows =>
    ofRow labels path .tableHead head ++ rows.flatMap (ofRow labels path .tableRow)

/-- The construct that a container is, if it is one. -/
def tagOf? : Container → Option Tag
  | .document => none
  | .quote => some .blockQuote
  | .list _ _ => some .list
  | .item _ => some .item

mutual

/-- The events of a block in the containers `path`; `tight` tells whether the innermost list around
it is tight. -/
def ofBlock (labels : List (List Char)) (path : List Container) (tight : Bool) :
    Block → List Event
  | .container kind span children =>
    let inner := ofBlocks labels (path ++ [kind])
      (kind.isTightList || (kind.isItem && tight)) children
    match tagOf? kind with
    | none => inner
    | some tag => surround tag span inner
  | .paragraph span tokens =>
    let inner := ofTokens labels path span.stop false tokens
    if tight then inner else surround .paragraph span inner
  | .heading span tokens =>
    surround .heading span (ofTokens labels path span.stop false tokens)
  | .code info span pieces =>
    let tag := match info with
      | some info => Tag.fencedCode info
      | none => Tag.indentedCode
    surround tag span (pieces.map ofPiece)
  | .html span pieces => surround .htmlBlock span (pieces.map ofPiece)
  | .rule span => [.rule span]
  | .table span rows => surround .table span (ofRows labels path rows)

/-- The events of blocks, one after the other. -/
def ofBlocks (labels : List (List Char)) (path : List Container) (tight : Bool) :
    List Block → List Event
  | [] => []
  | b :: bs => ofBlock labels path tight b ++ ofBlocks labels path tight bs

end

/-- The events of a text. -/
def ofText (text : List Char) : List Event :=
  let tree := BlockTree.ofText text
  ofBlocks tree.labels [] false tree.blocks

end Event

end FencedCode.Markdown
