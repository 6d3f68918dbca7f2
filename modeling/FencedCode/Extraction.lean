import FencedCode.Directive.Pending
import FencedCode.Fragment.Source
import FencedCode.Node.Walk
import FencedCode.Registry

/-!
# Extraction

The fragments of a document are its tagged code blocks in an accepted language, numbered in document
order. Each is made into a source with the directives that stand directly before it, unless it is
marked to be skipped and such fragments are left out.

Section 4.5 of the specification.
-/

namespace FencedCode

/-- Which fragments are extracted. -/
structure Selection where
  /-- The accepted languages; when there are none, every language is. -/
  languages : List String := []
  /-- Whether fragments marked to be skipped are left out. -/
  skipMarked : Bool := false
  deriving DecidableEq, Repr

/-- Whether fragments in a language are extracted. -/
def Selection.accepts (o : Selection) (tag : List Char) : Bool :=
  o.languages.isEmpty || o.languages.contains (String.ofList tag)

/-- A code block that is to be made into a source, with the directives that apply to it. -/
structure Candidate where
  id : FragmentId
  node : Node
  directives : List Directive

/-- The candidates among nodes in document order, when `pending` waits before the first of them and
`ordinal` fragments came before. -/
def candidatesFrom (o : Selection) (document : String) (pending : PendingDirectives)
    (ordinal : Nat) : List Node → List Candidate
  | [] => []
  | n :: ns =>
    match n.kind with
    | .html =>
      candidatesFrom o document (pending.note (n.value.getD []) n.range) ordinal ns
    | .code =>
      if n.languageTag?.any o.accepts then
        let rest := candidatesFrom o document .none (ordinal + 1) ns
        if o.skipMarked && pending.skipping then rest
        else ⟨⟨document, ordinal⟩, n, pending.directives⟩ :: rest
      else candidatesFrom o document .none ordinal ns
    | _ => candidatesFrom o document .none ordinal ns

/-- The candidates of a document tree. -/
def candidates (o : Selection) (document : String) (root : Node) : List Candidate :=
  candidatesFrom o document .none 0 root.preorder

/-- A fragment that has no source, and why. -/
structure SourceFailure where
  id : FragmentId
  error : SourceError
  deriving DecidableEq, Repr

/-- The outcome of an extraction: what was made, and what could not be made, in document order. -/
structure Extraction where
  blocks : List SourceBlock := []
  failures : List SourceFailure := []

namespace Extraction

/-- The sources that were made. -/
def sources (e : Extraction) : List Source := e.blocks.map (·.source)

/-- The maps for the sources, in the same order. -/
def maps (e : Extraction) : List FragmentMap := e.blocks.map (·.map)

/-- The outcome for candidates of one document. -/
def ofCandidates (x : LineIndex) : List Candidate → Extraction
  | [] => {}
  | c :: cs =>
    let rest := ofCandidates x cs
    match SourceBlock.ofNode x c.node c.directives c.id with
    | .ok block => { rest with blocks := block :: rest.blocks }
    | .error error => { rest with failures := ⟨c.id, error⟩ :: rest.failures }

/-- The outcome for a document tree. -/
def ofTree (o : Selection) (document : String) (x : LineIndex) (root : Node) : Extraction :=
  ofCandidates x (candidates o document root)

end Extraction

/-- A registry in which the maps of an extraction are the entry of its document. -/
def Registry.enter (r : Registry) (document : String) (e : Extraction) : Registry :=
  e.maps.foldl (fun r map ↦ r.register document map) (r.reset document)

end FencedCode
