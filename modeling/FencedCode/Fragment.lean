import FencedCode.ContainerPrefix
import FencedCode.LineIndex
import FencedCode.Node

/-!
# Fragments

A fragment is a tagged code block of a document. It is known by the document and its number there,
and its lines are freed of the container prefix that stands before its opening fence.

Sections 3 and 4.1 of the specification.
-/

namespace FencedCode

/-- The identity of a fragment: its document, and its number among the fragments of the document. -/
structure FragmentId where
  document : String
  ordinal : Nat
  deriving DecidableEq, Repr

/-- How an identity is written in messages: `document#ordinal`. -/
def FragmentId.text (id : FragmentId) : String := id.document ++ "#" ++ toString id.ordinal

/-- The name of a fragment's source, which ends in the language like a file name. -/
def FragmentId.fileName (id : FragmentId) (lang : String) : String :=
  id.document ++ "/" ++ toString id.ordinal ++ "." ++ lang

/-- How many characters of container prefix stand before a code block on the line of its opening
fence. -/
def containerIndent (x : LineIndex) (n : Node) : Nat :=
  match n.range.start.column with
  | 0 => 0
  | k + 1 =>
    match x.lineText? n.range.start.line with
    | none => 0
    | some line => ContainerPrefix.length (line.take k)

/-- A line freed of its container prefix, but of `indent` characters at most; with the number of
characters that went. -/
def dropIndent (indent : Nat) (line : List Char) : Nat × List Char :=
  let n := min indent (ContainerPrefix.length line)
  (n, line.drop n)

end FencedCode
