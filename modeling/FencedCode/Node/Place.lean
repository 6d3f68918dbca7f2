import FencedCode.ContainerPrefix
import FencedCode.LineIndex
import FencedCode.Markdown.Event
import FencedCode.Node

/-!
# Places of nodes

The range of a node from the bytes that its construct takes up. Code and HTML start after a
container prefix that is left on their first line, and nothing ends with a line's terminator.

Section 3 of the specification, the end of a node.
-/

namespace FencedCode

open Markdown (Span)

namespace NodeKind

/-- Whether nodes of a kind hold text that the events inside them add up to. -/
def isVerbatim (k : NodeKind) : Bool := k == code || k == html

end NodeKind

/-- The first line of a text without its terminator's line feed. -/
def firstLine (cs : List Char) : List Char := cs.takeWhile (· != '\n')

namespace Markdown.Span

/-- The part of a span inside a text of `length` bytes; a span that ends before it starts is
empty. -/
def clamp (s : Span) (length : Nat) : Span :=
  let start := min s.start length
  ⟨start, max (min s.stop length) start⟩

/-- A span without its last character, when that is `c`. -/
def dropLast? (s : Span) (text : List Char) (c : Char) : Option Span :=
  if s.start < s.stop && (Text.takeBytes s.stop text).getLast? == some c then
    some { s with stop := s.stop - c.utf8Size }
  else none

/-- A span without a terminator at its end. -/
def dropTerminator (s : Span) (text : List Char) : Span :=
  match s.dropLast? text '\n' with
  | none => s
  | some s => (s.dropLast? text '\r').getD s

end Markdown.Span

/-- The bytes of a node of a kind whose construct takes up a span. -/
def NodeKind.span (k : NodeKind) (text : List Char) (s : Span) : Span :=
  let s := s.clamp (Text.byteLength text)
  let skipped :=
    if k.isVerbatim then
      ContainerPrefix.byteLength (firstLine (Text.slice s.start s.stop text))
    else 0
  Span.dropTerminator ⟨s.start + skipped, s.stop⟩ text

/-- The place of a node of a kind whose construct takes up a span. -/
def NodeKind.place (k : NodeKind) (x : LineIndex) (s : Span) : Range :=
  let s := k.span x.text s
  ⟨x.position s.start, x.position s.stop⟩

end FencedCode
