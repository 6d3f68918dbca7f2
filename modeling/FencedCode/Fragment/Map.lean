import FencedCode.Fragment
import FencedCode.PositionMap

/-!
# From a fragment's source back to its document

A `FragmentMap` sends places in the source made from a fragment to places in the document, by
position or by byte offset.

Section 3 of the specification.
-/

namespace FencedCode

/-- The position map of a fragment with the lines of its source and of its document. -/
structure FragmentMap where
  id : FragmentId
  map : PositionMap
  generated : LineIndex
  host : LineIndex

namespace FragmentMap

/-- The document position of a position in the source. -/
def hostPosition? (m : FragmentMap) (generated : Position) : Option Position :=
  m.map.hostPosition? generated

/-- The document offset of a byte offset in the source; none past the end of the source. -/
def hostOffset? (m : FragmentMap) (generated : Nat) : Option Nat :=
  if m.generated.byteLength < generated then none
  else (m.map.hostPosition? (m.generated.position generated)).bind m.host.offset?

end FragmentMap

end FencedCode
