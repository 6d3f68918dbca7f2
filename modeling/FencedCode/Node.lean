import FencedCode.Position
import FencedCode.Text.Blank

/-!
# Document trees

A `Node` is a construct of a Markdown document with its place, its text where it has one, and the
constructs inside it.

Section 3 of the specification.
-/

namespace FencedCode

/-- The constructs that a document tree tells apart. -/
inductive NodeKind
  | root
  | paragraph
  | heading
  | blockquote
  | list
  | listItem
  | code
  | html
  | text
  | inlineCode
  | emphasis
  | strong
  | link
  | image
  | table
  | thematicBreak
  | break
  | other
  deriving DecidableEq, Repr, Inhabited

namespace NodeKind

/-- Every kind. -/
def all : List NodeKind :=
  [root, paragraph, heading, blockquote, list, listItem, code, html, text, inlineCode, emphasis,
    strong, link, image, table, thematicBreak, .break, other]

/-- The name of a kind. -/
def name : NodeKind → String
  | root => "root"
  | paragraph => "paragraph"
  | heading => "heading"
  | blockquote => "blockquote"
  | list => "list"
  | listItem => "listItem"
  | code => "code"
  | html => "html"
  | text => "text"
  | inlineCode => "inlineCode"
  | emphasis => "emphasis"
  | strong => "strong"
  | link => "link"
  | image => "image"
  | table => "table"
  | thematicBreak => "thematicBreak"
  | .break => "break"
  | other => "other"

/-- The kind of a given name. -/
def ofName? (s : String) : Option NodeKind := all.find? (·.name == s)

end NodeKind

/-- A construct of a document: its kind and place, the info string of a code block, the text of a
construct that holds text directly, and the constructs inside it in document order. -/
structure Node where
  kind : NodeKind
  range : Range
  lang : Option (List Char) := none
  value : Option (List Char) := none
  children : List Node := []
  deriving Inhabited

namespace Node

/-- The language of a code block: the first word of its info string. -/
def languageTag? (n : Node) : Option (List Char) :=
  n.lang.bind fun info ↦
    match Text.firstWord info with
    | [] => none
    | tag => some tag

/-- A node with one more child after those it has. -/
def adopt (n child : Node) : Node := { n with children := n.children ++ [child] }

end Node

end FencedCode
