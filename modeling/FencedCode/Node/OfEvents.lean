import FencedCode.Node.Place
import FencedCode.Text.Blank

/-!
# Trees from events

The tree of a document from the events of reading it. What is entered becomes a node that holds what
comes up to the matching end; text inside code or HTML blocks adds to the value of the block and is
no node. A surplus end is passed over, and what is never left ends with the document.

Sections 2 and 6 of the specification.
-/

namespace FencedCode

open Markdown (Event Span Tag)

/-- The kind of node for a construct. -/
def NodeKind.ofTag : Tag → NodeKind
  | .paragraph => paragraph
  | .heading => heading
  | .blockQuote => blockquote
  | .fencedCode _ => code
  | .indentedCode => code
  | .htmlBlock => html
  | .list => list
  | .item => listItem
  | .table => table
  | .tableHead => other
  | .tableRow => other
  | .tableCell => other
  | .emphasis => emphasis
  | .strong => strong
  | .strikethrough => other
  | .link => link
  | .image => image

namespace Node

/-- The node for a construct, without what it holds. An info string of blanks is none. -/
def ofTag (x : LineIndex) (tag : Tag) (span : Span) : Node :=
  let kind := NodeKind.ofTag tag
  let bare : Node := { kind, range := kind.place x span }
  match tag with
  | .fencedCode info =>
    { bare with lang := if (Text.trim info).isEmpty then none else some info, value := some [] }
  | .indentedCode => { bare with value := some [] }
  | .htmlBlock => { bare with value := some [] }
  | _ => bare

/-- A node that holds no nodes. -/
def leaf (x : LineIndex) (kind : NodeKind) (value : Option (List Char)) (span : Span) : Node :=
  { kind, range := kind.place x span, value }

/-- Whether text inside a node adds to its value. -/
def holdsText (n : Node) : Bool := n.kind.isVerbatim && n.value.isSome

/-- A node with more text in its value. -/
def appendValue (n : Node) (text : List Char) : Node :=
  { n with value := n.value.map (· ++ text) }

end Node

/-- A tree under construction: the innermost node that is not left yet, and those around it from the
inside out. -/
structure OpenNodes where
  innermost : Node
  outer : List Node := []

namespace OpenNodes

/-- A node added to the innermost one. -/
def add (o : OpenNodes) (n : Node) : OpenNodes := { o with innermost := o.innermost.adopt n }

/-- A node entered. -/
def enter (o : OpenNodes) (n : Node) : OpenNodes := ⟨n, o.innermost :: o.outer⟩

/-- The innermost node left, unless it is the root. -/
def leave (o : OpenNodes) : OpenNodes :=
  match o.outer with
  | [] => o
  | parent :: outer => ⟨parent.adopt o.innermost, outer⟩

/-- Text added to the value of the innermost node, or as a node of its own. -/
def addText (o : OpenNodes) (text : List Char) (n : Node) : OpenNodes :=
  if o.innermost.holdsText then { o with innermost := o.innermost.appendValue text } else o.add n

/-- The tree after one more event. -/
def step (x : LineIndex) (o : OpenNodes) : Event → OpenNodes
  | .enter tag span => o.enter (.ofTag x tag span)
  | .leave => o.leave
  | .text value span => o.addText value (.leaf x .text (some value) span)
  | .html value span => o.addText value (.leaf x .html (some value) span)
  | .inlineHtml value span => o.add (.leaf x .html (some value) span)
  | .code value span => o.add (.leaf x .inlineCode (some value) span)
  | .rule span => o.add (.leaf x .thematicBreak none span)
  | .hardBreak span => o.add (.leaf x .break none span)
  | .softBreak _ => o

/-- The tree when all nodes are left. -/
def root (innermost : Node) : List Node → Node
  | [] => innermost
  | parent :: outer => root (parent.adopt innermost) outer

end OpenNodes

/-- The tree of a document from the events of reading it. -/
def Node.ofEvents (x : LineIndex) (events : List Event) : Node :=
  let bare : Node := { kind := .root, range := NodeKind.root.place x ⟨0, x.byteLength⟩ }
  let o := events.foldl (OpenNodes.step x) ⟨bare, []⟩
  OpenNodes.root o.innermost o.outer

end FencedCode
