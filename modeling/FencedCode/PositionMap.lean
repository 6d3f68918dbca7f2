import FencedCode.Position
import FencedCode.Word

/-!
# Position maps

A `PositionMap` sends positions of a generated text to its host, the text that it was cut from. It
holds stretches of the generated text in reading order, each with the position of its start in the
host. A position inside a stretch, both ends included, keeps its distance in lines and columns from
the start; a position outside every stretch has no place in the host.

Sections 3 and 4.3 of the specification.
-/

namespace FencedCode

/-- Column `column` moved by the distance from column `origin` to column `target`, but not to the
left of the first column. The columns are words, and the sum is read in two's complement. -/
def shiftColumn (column target origin : Nat) : Nat :=
  (max 1 (signedWord ((column : Int) + target - origin))).toNat

/-- Why a stretch cannot be added to a map. -/
inductive MapError
  /-- The stretch does not start after the end of the one before it. -/
  | outOfOrder (previous inserted : Position)
  /-- The stretch ends before it starts. -/
  | invertedRange (start stop : Position)
  deriving DecidableEq, Repr

/-- The wording of a map error. -/
def MapError.message : MapError → String
  | .outOfOrder previous inserted =>
    "mapping at " ++ inserted.text ++ " inserted after segment at " ++ previous.text
  | .invertedRange start stop =>
    "generated range ends at " ++ stop.text ++ " before it starts at " ++ start.text

/-- One boundary of a map. -/
inductive Segment
  /-- Generated positions from here on lie in a stretch that starts at `host`. -/
  | anchor (generated host : Position)
  /-- Generated positions after this one have no place in the host. -/
  | limit (generated : Position)
  deriving DecidableEq, Repr

/-- Where a boundary lies in the generated text. -/
def Segment.generated : Segment → Position
  | .anchor generated _ => generated
  | .limit generated => generated

/-- Boundaries in reading order, an anchor and a limit for each stretch. -/
structure PositionMap where
  segments : List Segment := []
  deriving DecidableEq, Repr

namespace PositionMap

/-- The map without stretches. -/
def empty : PositionMap := ⟨[]⟩

/-- Add the stretch `generated`, whose start comes from the start of `host`. -/
def add (m : PositionMap) (host generated : Range) : Except MapError PositionMap :=
  if generated.stop < generated.start then
    .error (.invertedRange generated.start generated.stop)
  else
    let stretch := [.anchor generated.start.bare host.start.bare, .limit generated.stop.bare]
    match m.segments.getLast? with
    | none => .ok ⟨stretch⟩
    | some last =>
      if generated.start ≤ last.generated then
        .error (.outOfOrder last.generated generated.start)
      else .ok ⟨m.segments ++ stretch⟩

/-- The anchor of the stretch that a generated position belongs to: the last boundary at or before
it, or the one before that when the position is exactly a limit. -/
def anchor? (m : PositionMap) (generated : Position) : Option (Position × Position) :=
  match (m.segments.takeWhile (·.generated ≤ generated)).reverse with
  | .anchor g o :: _ => some (g, o)
  | .limit l :: .anchor g o :: _ => if generated ≤ l then some (g, o) else none
  | _ => none

/-- The place of a generated position in the host: as many lines below the start of its stretch as
the position lies below the generated start, and the start's column moved by the difference of the
two columns. The line is a word, too. -/
def hostPosition? (m : PositionMap) (generated : Position) : Option Position :=
  (m.anchor? generated).map fun (g, o) ↦
    ⟨word (o.line + (generated.line - g.line)),
      shiftColumn o.column generated.column g.column, none⟩

end PositionMap

end FencedCode
