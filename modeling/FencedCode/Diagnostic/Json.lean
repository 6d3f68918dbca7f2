import FencedCode.Diagnostic
import FencedCode.Json.Reader
import FencedCode.Json.Record
import FencedCode.Json.Writer

/-!
# Diagnostics as JSON

A diagnostic is written as an object. What it lacks is left out, its rule apart, which is then null.
What a text leaves out when it is read has its default.

Section 6 of the specification.
-/

namespace FencedCode

open Json

namespace Fix

/-- The names of the members, in order. -/
def memberNames : List (List Char) := ["range".toList, "text".toList]

/-- A fix as JSON. -/
def toJson (f : Fix) : Json :=
  .object [member "range" (.array [.natural f.start, .natural f.stop]),
    member "text" (.ofString f.text)]

/-- The fix that a JSON value describes. -/
def ofJson? (v : Json) : Option Fix := do
  let ms ← record? memberNames v
  let range ← required? (list? word?) ms "range"
  let text ← required? string? ms "text"
  match range with
  | [start, stop] => return ⟨start, stop, text⟩
  | _ => none

end Fix

namespace Suggestion

/-- The names of the members, in order. -/
def memberNames : List (List Char) := ["desc".toList, "fix".toList]

/-- A suggestion as JSON. -/
def toJson (s : Suggestion) : Json :=
  .object (member "desc" (.ofString s.description) :: optional "fix" Fix.toJson s.fix)

/-- The suggestion that a JSON value describes. -/
def ofJson? (v : Json) : Option Suggestion := do
  let ms ← record? memberNames v
  let description ← defaulted? string? "" ms "desc"
  let fix ← defaulted? (nullable? Fix.ofJson?) none ms "fix"
  return ⟨description, fix⟩

end Suggestion

namespace Diagnostic

/-- The names of the members, in order. -/
def memberNames : List (List Char) :=
  ["ruleId".toList, "message".toList, "severity".toList, "line".toList, "column".toList,
    "endLine".toList, "endColumn".toList, "fix".toList, "suggestions".toList]

/-- A diagnostic as JSON. -/
def toJson (d : Diagnostic) : Json :=
  .object ([member "ruleId" (d.rule.elim .null .ofString), member "message" (.ofString d.message),
      member "severity" (.natural d.severity.toNat), member "line" (.natural d.line),
      member "column" (.natural d.column)] ++
    optional "endLine" .natural d.endLine ++ optional "endColumn" .natural d.endColumn ++
    optional "fix" Fix.toJson d.fix ++
    if d.suggestions.isEmpty then []
    else [member "suggestions" (.array (d.suggestions.map Suggestion.toJson))])

/-- The diagnostic that a JSON value describes. -/
def ofJson? (v : Json) : Option Diagnostic := do
  let ms ← record? memberNames v
  let rule ← defaulted? (nullable? string?) none ms "ruleId"
  let message ← defaulted? string? "" ms "message"
  let severity ← defaulted? (below? 256) 0 ms "severity"
  let line ← required? word? ms "line"
  let column ← required? word? ms "column"
  let endLine ← defaulted? (nullable? word?) none ms "endLine"
  let endColumn ← defaulted? (nullable? word?) none ms "endColumn"
  let fix ← defaulted? (nullable? Fix.ofJson?) none ms "fix"
  let suggestions ← defaulted? (list? Suggestion.ofJson?) [] ms "suggestions"
  return ⟨rule, message, UInt8.ofNat severity, line, column, endLine, endColumn, fix, suggestions⟩

/-- The diagnostic that a JSON text describes. -/
def read? (text : List Char) : Option Diagnostic := (Json.read? text).bind ofJson?

/-- The diagnostics that a JSON text lists. -/
def readList? (text : List Char) : Option (List Diagnostic) :=
  (Json.read? text).bind (list? ofJson?)

/-- The batches of diagnostics that a JSON text lists. -/
def readBatches? (text : List Char) : Option (List (List Diagnostic)) :=
  (Json.read? text).bind (list? (list? ofJson?))

/-- Diagnostics as a JSON text, laid out with one member a line. -/
def writeList (ds : List Diagnostic) : List Char := (Json.array (ds.map toJson)).pretty

end Diagnostic

end FencedCode
