import FencedCode.Directive
import FencedCode.Fence
import FencedCode.Fragment.Map

/-!
# The source of a fragment

The source made from a fragment is each of its directives as a block comment and then the content
lines of the code block, freed of their container prefix. Beside the text stands the map that leads
back to the document: from a directive to its comment, from a content line to its line, and from
the empty line at the end to the closing fence, or to the end of the content when there is none.

Section 4.4 of the specification.
-/

namespace FencedCode

/-- Why a fragment has no source. -/
inductive SourceError
  /-- A line of the fragment is not in the document. -/
  | lineOutOfBounds (line lineCount : Nat)
  | missingLanguage
  /-- A directive spans a range that no map can hold. -/
  | map (error : MapError)
  deriving DecidableEq, Repr

/-- The wording of a source error. -/
def SourceError.message : SourceError → String
  | .lineOutOfBounds line lineCount =>
    "fragment line " ++ toString line ++ " is outside the document (" ++ toString lineCount ++
      " lines)"
  | .missingLanguage => "fragment has no language tag"
  | .map error => error.message

/-- The source of a fragment. -/
structure Source where
  id : FragmentId
  fileName : String
  lang : String
  text : List Char
  deriving DecidableEq, Repr

/-- What stands before the text of a directive in a source. -/
def commentOpening : List Char := ['/', '*']

/-- What stands after the text of a directive in a source. -/
def commentClosing : List Char := ['*', '/']

/-- The lines of the block comment for a directive. -/
def Directive.commentLines (d : Directive) : List (List Char) :=
  Text.splitFeeds (commentOpening ++ d.text ++ commentClosing)

/-- Where the text of a directive stands in a source when its comment starts on line `first` and
takes `count` lines: from the column after the opener, over as many lines as the comment in the
document, but not more than there are, to the column that lies as far from it as there. -/
def Directive.generatedRange (d : Directive) (first count : Nat) : Range :=
  let column := commentOpening.length + 1
  ⟨⟨first, column, none⟩,
    ⟨first + min d.location.height (count - 1),
      shiftColumn column d.location.stop.column d.location.start.column, none⟩⟩

/-- A source under construction: its lines so far and the map for them. -/
structure Draft where
  lines : List (List Char) := []
  map : PositionMap := {}

namespace Draft

/-- The number of the next line. -/
def nextLine (d : Draft) : Nat := d.lines.length + 1

/-- A draft with one more directive. -/
def addDirective (d : Draft) (directive : Directive) : Except MapError Draft := do
  let comment := directive.commentLines
  let map ← d.map.add directive.location (directive.generatedRange d.nextLine comment.length)
  return ⟨d.lines ++ comment, map⟩

/-- A draft with one more content line, the document's line number `n`. -/
def addContent (d : Draft) (indent n : Nat) (line : List Char) : Except MapError Draft := do
  let (stripped, text) := dropIndent indent line
  let map ← d.map.add
    ⟨⟨n, stripped + 1, none⟩, ⟨n, stripped + text.length + 1, none⟩⟩
    ⟨⟨d.nextLine, 1, none⟩, ⟨d.nextLine, text.length + 1, none⟩⟩
  return ⟨d.lines ++ [text], map⟩

/-- A draft with more content lines, each given with its number in the document. -/
def addLines (d : Draft) (indent : Nat) (lines : List (Nat × List Char)) : Except MapError Draft :=
  lines.foldlM (fun d (n, line) ↦ d.addContent indent n line) d

/-- A draft with the end of its text mapped to a position of the document; nothing to map when the
text is empty. -/
def close (d : Draft) (stop : Position) : Except MapError Draft :=
  if d.lines.isEmpty then .ok d
  else do
    let map ← d.map.add (.point stop) (.point ⟨d.nextLine, 1, none⟩)
    return { d with map }

/-- The text of a draft. -/
def text (d : Draft) : List Char := Text.joinLines d.lines

end Draft

/-- Line number `n` of a document that a fragment lies in. -/
def fragmentLine (x : LineIndex) (n : Nat) : Except SourceError (List Char) :=
  match x.lineText? n with
  | some line => .ok line
  | none => .error (.lineOutOfBounds n x.lineCount)

/-- `count` lines of a document from line number `n` on, with their numbers. -/
def fragmentLines (x : LineIndex) (n : Nat) : Nat → Except SourceError (List (Nat × List Char))
  | 0 => .ok []
  | count + 1 => do
    let line ← fragmentLine x n
    let lines ← fragmentLines x (n + 1) count
    return (n, line) :: lines

/-- Which lines of the document hold the content of a code block, and the one with its closing
fence. -/
structure CodeLines where
  first : Nat
  count : Nat
  closing : Option Nat
  deriving DecidableEq, Repr

/-- The content of a code block is all lines after the first, without the last when that closes the
fence that the first one opens. -/
def CodeLines.ofNode (x : LineIndex) (n : Node) (indent : Nat) : Except SourceError CodeLines := do
  let first := n.range.start.line
  let last := n.range.stop.line
  let opening ← fragmentLine x first
  let unclosed : CodeLines := ⟨first + 1, last - first, none⟩
  if last ≤ first then return unclosed
  match Fence.opening? (dropIndent indent opening).2 with
  | none => return unclosed
  | some fence =>
    let line ← fragmentLine x last
    if fence.closedBy (dropIndent indent line).2 then return ⟨first + 1, last - 1 - first, some last⟩
    else return unclosed

/-- The document position for the end of a source: the closing fence, else the end of the last
content line, else the end of the block. -/
def CodeLines.stop (b : CodeLines) (x : LineIndex) (n : Node) (indent : Nat)
    (content : List (Nat × List Char)) : Position :=
  match b.closing with
  | some line => ⟨line, (dropIndent indent ((x.lineText? line).getD [])).1 + 1, none⟩
  | none =>
    match content.getLast? with
    | some (k, line) =>
      let (stripped, text) := dropIndent indent line
      ⟨k, stripped + text.length + 1, none⟩
    | none => n.range.stop

/-- The source of a fragment together with the map back to the document. -/
structure SourceBlock where
  source : Source
  map : FragmentMap

/-- The source of the code block `n` with the directives that apply to it. -/
def SourceBlock.ofNode (x : LineIndex) (n : Node) (directives : List Directive) (id : FragmentId) :
    Except SourceError SourceBlock := do
  let some tag := n.languageTag? | .error .missingLanguage
  let lang := String.ofList tag
  let indent := containerIndent x n
  let comments ← (directives.foldlM Draft.addDirective {}).mapError .map
  let body ← CodeLines.ofNode x n indent
  let content ← fragmentLines x body.first body.count
  let filled ← (comments.addLines indent content).mapError .map
  let draft ← (filled.close (body.stop x n indent content)).mapError .map
  return ⟨⟨id, id.fileName lang, lang, draft.text⟩,
    ⟨id, draft.map, .ofText draft.text, x⟩⟩

end FencedCode
