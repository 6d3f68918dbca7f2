import FencedCode.Markdown.Block

/-!
# Open containers

The block structure of a text that is read up to some line: the containers that are still open, each
with the blocks inside it that are finished, and what earlier lines mean for the lists among them. A
list is loose when a blank line stands between two of its items or between two blocks of an item.
-/

namespace FencedCode.Markdown

/-- An open container: where it starts, and the finished blocks inside it, last one first. -/
structure OpenContainer where
  kind : Container
  start : Nat
  blocks : List Block := []

/-- The block structure of the lines read so far. -/
structure OpenContainers where
  /-- The open containers, the innermost one first. -/
  frames : List OpenContainer := []
  /-- The finished blocks in no container, last one first. -/
  blocks : List Block := []
  /-- Whether the line before was blank. -/
  afterBlank : Bool := false
  /-- The end of the line, when nothing but the marker of the innermost item was found yet. -/
  emptyItem : Option Nat := none
  /-- The labels of the link definitions. -/
  labels : List (List Char) := []

namespace OpenContainers

/-- The kinds of the open containers, the outermost one first. -/
def path (o : OpenContainers) : List Container := (o.frames.map (·.kind)).reverse

/-- The kind of the innermost open container. -/
def innermost? (o : OpenContainers) : Option Container := o.frames.head?.map (·.kind)

/-- One more finished block in the innermost container. -/
def add (o : OpenContainers) (b : Block) : OpenContainers :=
  match o.frames with
  | [] => { o with blocks := b :: o.blocks }
  | f :: fs => { o with frames := { f with blocks := b :: f.blocks } :: fs }

/-- A container opened in the innermost one. -/
def push (o : OpenContainers) (kind : Container) (start : Nat) : OpenContainers :=
  { o with frames := ⟨kind, start, []⟩ :: o.frames }

/-- The innermost container ended at an offset. -/
def close (o : OpenContainers) (stop : Nat) : OpenContainers :=
  match o.frames with
  | [] => o
  | f :: fs =>
    { { o with frames := fs }.add (.container f.kind ⟨f.start, stop⟩ f.blocks.reverse) with
      emptyItem := if f.kind.isTightList then none else o.emptyItem }

/-- The `n` innermost containers ended at an offset. -/
def closeMany (stop : Nat) : Nat → OpenContainers → OpenContainers
  | 0, o => o
  | n + 1, o => closeMany stop n (o.close stop)

/-- The containers with a change to the kind of number `i`, counted from the innermost one. -/
def changeKind (o : OpenContainers) (i : Nat) (f : Container → Container) : OpenContainers :=
  { o with frames := o.frames.modify i fun frame ↦ { frame with kind := f frame.kind } }

/-- A list becomes loose. -/
def loosen : Container → Container
  | .list mark _ => .list mark false
  | k => k

/-- An item that nothing was found in, not even on the line after its marker, ends with the line of
its marker. -/
def endEmptyItem (o : OpenContainers) : OpenContainers :=
  let closed := match o.emptyItem with
    | none => o
    | some stop =>
      if o.afterBlank && o.innermost?.any Container.isItem then o.close stop else o
  { closed with emptyItem := none }

/-- Before a block that is no item of the innermost list: that list ends, and a blank line before
the block makes the list loose whose item the block is in. -/
def endList (o : OpenContainers) (stop : Nat) : OpenContainers :=
  let o := o.endEmptyItem
  let o := if o.innermost?.any Container.isList then o.close stop else o
  if o.afterBlank then { o.changeKind 1 loosen with afterBlank := false } else o

/-- Before an item whose marker ends in a given character: the innermost list, when it is a list of
such items, else a new one. -/
def continueList (o : OpenContainers) (start : Nat) (mark : Char) : OpenContainers :=
  let o := o.endEmptyItem
  match o.innermost? with
  | some (.list m _) =>
    if m = mark then
      if o.afterBlank then { o.changeKind 0 loosen with afterBlank := false } else o
    else { (o.endList start).push (.list mark true) start with afterBlank := false }
  | _ => { (o.endList start).push (.list mark true) start with afterBlank := false }

/-- A blank line: it is kept in mind, but not directly in a quote, and an item that nothing was
found in yet is not continued by what follows. -/
def addBlank (o : OpenContainers) : OpenContainers :=
  match o.innermost? with
  | some .quote => o
  | some (.item _) =>
    if o.emptyItem.isSome then { o.changeKind 0 (fun _ ↦ .item 0) with afterBlank := true }
    else { o with afterBlank := true }
  | _ => { o with afterBlank := true }

/-- The blocks of the text, when it ends at an offset. -/
def finish (o : OpenContainers) (stop : Nat) : List Block :=
  (closeMany stop o.frames.length o).blocks.reverse

end OpenContainers

end FencedCode.Markdown
