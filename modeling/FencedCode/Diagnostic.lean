/-!
# Diagnostics

What a linter reports about a text: a rule, a message and a place, with lines counted from one and
columns from zero. A fix replaces a range of bytes; a suggestion is a fix that is offered.

Section 6 of the specification.
-/

namespace FencedCode

/-- The replacement of the bytes from `start` up to `stop` by a text. -/
structure Fix where
  start : Nat
  stop : Nat
  text : String
  deriving DecidableEq, Repr, Inhabited

/-- A fix that is offered under a description; none when it could not be kept. -/
structure Suggestion where
  description : String := ""
  fix : Option Fix := none
  deriving DecidableEq, Repr, Inhabited

/-- A report about a text. -/
structure Diagnostic where
  rule : Option String := none
  message : String := ""
  severity : UInt8 := 0
  line : Nat
  column : Nat
  endLine : Option Nat := none
  endColumn : Option Nat := none
  fix : Option Fix := none
  suggestions : List Suggestion := []
  deriving DecidableEq, Repr

namespace Diagnostic

/-- The severity of an error. -/
def errorSeverity : UInt8 := 2

/-- An error at a place, without a message. -/
def error (rule : Option String) (line column : Nat) : Diagnostic :=
  { rule, severity := errorSeverity, line, column }

/-- A diagnostic with an end. -/
def withEnd (d : Diagnostic) (line column : Nat) : Diagnostic :=
  { d with endLine := some line, endColumn := some column }

/-- A diagnostic with a fix. -/
def withFix (d : Diagnostic) (fix : Fix) : Diagnostic := { d with fix := some fix }

/-- A diagnostic with one more suggestion. -/
def withSuggestion (d : Diagnostic) (description : String) (fix : Fix) : Diagnostic :=
  { d with suggestions := d.suggestions ++ [⟨description, some fix⟩] }

/-- A diagnostic with every fix put through `f`; suggestions stay, with or without a fix. -/
def filterFixes (f : Fix → Option Fix) (d : Diagnostic) : Diagnostic :=
  { d with
    fix := d.fix.bind f
    suggestions := d.suggestions.map fun s ↦ { s with fix := s.fix.bind f } }

/-- A diagnostic without fixes. -/
def withoutFixes (d : Diagnostic) : Diagnostic := d.filterFixes fun _ ↦ none

end Diagnostic

end FencedCode
