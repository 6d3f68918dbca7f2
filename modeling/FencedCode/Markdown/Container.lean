import FencedCode.Markdown.Cursor

/-!
# Containers

The blocks that hold other blocks, and what a line must start with to continue them: a quote marker
for a block quote, the item's indentation for a list item, nothing for the others.
-/

namespace FencedCode.Markdown

/-- A block that holds blocks. -/
inductive Container
  | document
  | quote
  /-- A list whose markers end in a given character; tight when no blank line separates its
  parts. -/
  | list (mark : Char) (tight : Bool)
  /-- An item whose content is indented by a number of columns. -/
  | item (indent : Nat)
  deriving DecidableEq, Repr, Inhabited

namespace Container

/-- Whether the container is a list. -/
def isList : Container → Bool
  | list _ _ => true
  | _ => false

/-- Whether the container is a list item. -/
def isItem : Container → Bool
  | item _ => true
  | _ => false

/-- Whether the container is a tight list. -/
def isTightList : Container → Bool
  | list _ tight => tight
  | _ => false

end Container

/-- The margin after a quote marker and one column of blanks. -/
def Margin.takeQuoteMark? (m : Margin) : Option Margin :=
  (m.takeChar? '>').map fun m ↦ (m.take 1).2

/-- The margin after what continues a container, if the line continues it. A blank line continues
every item. -/
def Margin.continue? (m : Margin) : Container → Option Margin
  | .quote => (m.take 3).2.takeQuoteMark?
  | .item indent =>
    let (missing, m) := m.take indent
    if missing = 0 || m.atEnding then some m else none
  | _ => some m

/-- Continue containers from the outermost on as far as the line does; says which are left. -/
def Margin.continueAll (m : Margin) : List Container → List Container × Margin
  | [] => ([], m)
  | k :: ks =>
    match m.continue? k with
    | some m => m.continueAll ks
    | none => (k :: ks, m)

/-- The start of a line inside containers: its margin after what continues them, and whether it
continues all of them. -/
def lineStart (path : List Container) (c : Cursor) : Bool × Margin :=
  let (left, m) := (Margin.ofCursor c).continueAll path
  (left.isEmpty, m)

/-- The rest of a text after what continues containers. -/
def afterContinuation (path : List Container) (cs : List Char) : List Char :=
  (lineStart path { rest := cs }).2.rest

end FencedCode.Markdown
