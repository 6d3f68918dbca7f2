import FencedCode.Markdown.BlockStart
import FencedCode.Markdown.Html
import FencedCode.Markdown.TableHead

/-!
# What ends a paragraph

The lines that cannot continue a paragraph or a table: blank lines and those that start another
block. A list item interrupts a paragraph of its own container only when it is a bullet or has the
number one, and when it does not start empty.
-/

namespace FencedCode.Markdown

/-- Whether a line that starts with HTML ends a paragraph. -/
def startsHtml (cs : List Char) : Bool :=
  match cs with
  | '<' :: rest => (Html.blockEnd? rest).isSome || Html.startsBlockTag rest
  | _ => false

/-- Whether a list item starts here that ends a paragraph; `continues` says whether the line
continues all containers. -/
def startsItem (continues inTable : Bool) (cs : List Char) : Bool :=
  (listMark? cs).any fun mark ↦
    mark.isSeparated &&
      (!continues || inTable || ((mark.isBullet || mark.number == 1) && !mark.startsEmpty))

/-- Whether a line ends a paragraph or a table, tables apart. -/
def startsBlock (continues inTable : Bool) (cs : List Char) : Bool :=
  (endingLength? cs).isSome || (ruleLength? cs).isSome || (headingLevel? cs).isSome ||
    (fenceStart? cs).isSome || cs.head? == some '>' || startsItem continues inTable cs ||
    startsHtml cs

/-- Whether a line ends a paragraph; a table does so only when it starts with a pipe. -/
def interruptsParagraph (path : List Container) (continues : Bool) (cs : List Char) : Bool :=
  startsBlock continues false cs || (cs.head? == some '|' && (tableHead? path cs).isSome)

end FencedCode.Markdown
