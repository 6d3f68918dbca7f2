import FencedCode.Fragment.Source
import FencedCode.Json.Record
import FencedCode.Json.Writer

/-!
# Fragments as JSON

The identity of a fragment is written as an object and read back from one; its source is only
written.

Section 8.3 of the specification.
-/

namespace FencedCode

open Json

namespace FragmentId

/-- The names of the members, in order. -/
def memberNames : List (List Char) := ["document".toList, "ordinal".toList]

/-- An identity as JSON. -/
def toJson (id : FragmentId) : Json :=
  .object [member "document" (.ofString id.document), member "ordinal" (.natural id.ordinal)]

/-- The identity that a JSON value describes. -/
def ofJson? (v : Json) : Option FragmentId := do
  let ms ← record? memberNames v
  let document ← required? string? ms "document"
  let ordinal ← required? word? ms "ordinal"
  return ⟨document, ordinal⟩

end FragmentId

namespace Source

/-- A source as JSON. -/
def toJson (s : Source) : Json :=
  .object [member "id" s.id.toJson, member "identifier" (.ofString s.fileName),
    member "lang" (.ofString s.lang), member "text" (.string s.text)]

/-- Sources as a JSON text, laid out with one member a line. -/
def writeList (sources : List Source) : List Char := (Json.array (sources.map toJson)).pretty

end Source

end FencedCode
