import FencedCode.Directive

/-!
# Directives that wait for a fragment

Directives apply to the next fragment as long as nothing but directives stands between. The mark
`eslint-skip` among them withholds the ones before and after it.

Section 4.2 of the specification.
-/

namespace FencedCode

/-- Directives that wait for the next fragment, and whether that one is marked to be skipped. -/
structure PendingDirectives where
  directives : List Directive := []
  skipping : Bool := false
  deriving DecidableEq, Repr

namespace PendingDirectives

/-- Nothing waits. -/
def none : PendingDirectives := {}

/-- Take note of an HTML text at `location`. One that is no directive drops all that waits. -/
def note (p : PendingDirectives) (html : List Char) (location : Range) : PendingDirectives :=
  match Directive.text? html with
  | .none => none
  | some text =>
    if text = Directive.skipMark then ⟨[], true⟩
    else if p.skipping then p
    else { p with directives := p.directives ++ [⟨text, location⟩] }

end PendingDirectives

end FencedCode
