import FencedCode.Extraction
import FencedCode.Markdown.Event.OfText
import FencedCode.Node.OfEvents

/-!
# Documents

A document is a Markdown text with its lines and its tree; its fragments are extracted from both.
The tree is made of the events of reading the text, whatever these are.

Sections 4.5 and 6 of the specification.
-/

namespace FencedCode

open Markdown (Event)

/-- A Markdown document. -/
structure Document where
  lines : LineIndex
  root : Node

namespace Document

/-- The document of a text that was read into events. -/
def ofEvents (text : List Char) (events : List Event) : Document :=
  let lines := LineIndex.ofText text
  ⟨lines, .ofEvents lines events⟩

/-- The document of a Markdown text. -/
def ofText (text : List Char) : Document := ofEvents text (Event.ofText text)

/-- The fragments of a document that goes by a name. -/
def extract (d : Document) (o : Selection) (name : String) : Extraction :=
  .ofTree o name d.lines d.root

end Document

namespace Registry

/-- The fragments of a document, and the registry in which they are the entry of its name. -/
def extractDocument (r : Registry) (o : Selection) (name : String) (d : Document) :
    Extraction × Registry :=
  let extraction := d.extract o name
  (extraction, r.enter name extraction)

/-- The fragments of a Markdown text, and the registry in which they are the entry of its name. -/
def extract (r : Registry) (o : Selection) (name : String) (text : List Char) :
    Extraction × Registry :=
  r.extractDocument o name (.ofText text)

end Registry

end FencedCode
