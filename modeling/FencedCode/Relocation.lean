import FencedCode.Diagnostic
import FencedCode.Registry

/-!
# Relocated diagnostics

Diagnostics about the sources of a document's fragments become diagnostics about the document. What
has no place there is left out. Fixes are kept when the diagnostic stays on one line of the document
and both ends of the fix have a place; across lines the document has container prefixes that an edit
of the source knows nothing of.

Section 4.7 of the specification.
-/

namespace FencedCode

/-- The rules that a fragment of a larger document cannot meet. -/
def wholeFileRules : List String := ["eol-last", "unicode-bom"]

/-- Whether relocation keeps fixes. -/
def keepsFixes : Bool := true

/-- Why diagnostics cannot be attributed to fragments. -/
inductive RelocationError
  | registry (error : RegistryError)
  | batchCountMismatch (document : String) (expected actual : Nat)
  deriving DecidableEq, Repr

/-- The wording of a relocation error. -/
def RelocationError.message : RelocationError → String
  | .registry error => error.message
  | .batchCountMismatch document expected actual =>
    "document " ++ document ++ " has " ++ toString expected ++ " fragments but " ++
      toString actual ++ " diagnostic batches were given"

namespace FragmentMap

/-- The document position of a line counted from one and a column counted from zero. The greatest
column that a word holds wraps around when it is counted from one. -/
def place? (m : FragmentMap) (line column : Nat) : Option Position :=
  m.hostPosition? ⟨line, word (column + 1), none⟩

/-- A fix moved to the document, when both of its ends have a place there in the right order. -/
def moveFix? (m : FragmentMap) (fix : Fix) : Option Fix :=
  match m.hostOffset? fix.start, m.hostOffset? fix.stop with
  | some start, some stop => if start ≤ stop then some ⟨start, stop, fix.text⟩ else none
  | _, _ => none

/-- A diagnostic with its fixes moved to the document, or without them when it leaves its line. -/
def moveFixes (m : FragmentMap) (oneLine : Bool) (d : Diagnostic) : Diagnostic :=
  if oneLine then d.filterFixes m.moveFix? else d.withoutFixes

/-- A diagnostic moved to the document. An end that has no place there is dropped; a diagnostic
without a full end counts as staying on its line. -/
def moveDiagnostic? (m : FragmentMap) (d : Diagnostic) : Option Diagnostic :=
  (m.place? d.line d.column).map fun start ↦
    let d := { d with line := start.line, column := start.column - 1 }
    match d.endLine, d.endColumn with
    | some line, some column =>
      match m.place? line column with
      | some stop =>
        m.moveFixes (stop.line == start.line)
          { d with endLine := some stop.line, endColumn := some (stop.column - 1) }
      | none => m.moveFixes false { d with endLine := none, endColumn := none }
    | _, _ => m.moveFixes true d

end FragmentMap

/-- Whether a diagnostic is about a rule that a fragment can meet. -/
def Diagnostic.appliesToFragments (d : Diagnostic) : Bool := !d.rule.any wholeFileRules.contains

/-- The diagnostics about one source, moved to the document. -/
def FragmentMap.moveBatch (m : FragmentMap) (batch : List Diagnostic) : List Diagnostic :=
  (batch.filter (·.appliesToFragments)).filterMap m.moveDiagnostic?

/-- Relocate one batch of diagnostics for each fragment of a document, in the order in which the
fragments were registered. -/
def relocate (r : Registry) (document : String) (batches : List (List Diagnostic)) :
    Except RelocationError (List Diagnostic) := do
  let maps ← (r.maps document).mapError .registry
  if maps.length ≠ batches.length then
    .error (.batchCountMismatch document maps.length batches.length)
  else .ok ((maps.zip batches).flatMap fun (m, batch) ↦ m.moveBatch batch)

/-- Relocate batches of diagnostics given with the fragments that they are about. -/
def relocateBatches (r : Registry) :
    List (FragmentId × List Diagnostic) → Except RelocationError (List Diagnostic)
  | [] => .ok []
  | (id, batch) :: rest => do
    let map ← (r.find id).mapError .registry
    let others ← relocateBatches r rest
    return map.moveBatch batch ++ others

end FencedCode
