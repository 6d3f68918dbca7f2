import FencedCode.Document
import FencedCode.Proofs.Extraction.Runs
import FencedCode.Proofs.Registry.Entries

/-!
# What an extraction reports and registers

An extraction makes a source of each candidate on its own: what can be made is reported and
registered in document order, and what cannot is reported as a failure, with no influence on the
others. The main statement puts this together with the reading of the candidates that looks back
from each fragment.
-/

namespace FencedCode

namespace Candidate

/-- The source of a candidate with its map, or why it has none. -/
def outcome (x : LineIndex) (c : Candidate) : Except SourceError SourceBlock :=
  SourceBlock.ofNode x c.node c.directives c.id

/-- The source of a candidate with its map, when it has one. -/
def block? (x : LineIndex) (c : Candidate) : Option SourceBlock := (c.outcome x).toOption

/-- The failure of a candidate that has no source. -/
def failure? (x : LineIndex) (c : Candidate) : Option SourceFailure :=
  match c.outcome x with
  | .ok _ => none
  | .error error => some ⟨c.id, error⟩

end Candidate

namespace Extraction

/-- The blocks are those of the candidates that give one, in their order. -/
theorem blocks_ofCandidates (x : LineIndex) (cs : List Candidate) :
    (ofCandidates x cs).blocks = cs.filterMap (·.block? x) := by
  induction cs with
  | nil => rfl
  | cons c cs ih =>
    rw [ofCandidates, List.filterMap_cons, Candidate.block?, Candidate.outcome]
    cases SourceBlock.ofNode x c.node c.directives c.id with
    | ok block => exact congrArg (block :: ·) ih
    | error error => exact ih

/-- The failures are those of the candidates that give one, in their order. -/
theorem failures_ofCandidates (x : LineIndex) (cs : List Candidate) :
    (ofCandidates x cs).failures = cs.filterMap (·.failure? x) := by
  induction cs with
  | nil => rfl
  | cons c cs ih =>
    rw [ofCandidates, List.filterMap_cons, Candidate.failure?, Candidate.outcome]
    cases SourceBlock.ofNode x c.node c.directives c.id with
    | ok block => exact ih
    | error error => exact congrArg (⟨c.id, error⟩ :: ·) ih

end Extraction

namespace Registry

/-- To enter an extraction is to write its maps as the entry of its document. -/
theorem enter_eq_put (r : Registry) (document : String) (e : Extraction) :
    r.enter document e = r.put document e.maps := by
  rw [enter, reset, foldl_register_put, List.nil_append]

/-- After an extraction is entered, its maps are the entry of its document. -/
theorem maps?_enter (r : Registry) (document : String) (e : Extraction) :
    (r.enter document e).maps? document = some e.maps := by
  rw [enter_eq_put, maps?_put]

/-- Entering an extraction leaves the maps of the other documents as they were. -/
theorem maps?_enter_of_ne (r : Registry) {document other : String} (h : other ≠ document)
    (e : Extraction) : (r.enter document e).maps? other = r.maps? other := by
  rw [enter_eq_put, r.maps?_put_of_ne h]

end Registry

/-- An extraction has the outcomes of the candidates found by looking back. -/
theorem Document.extract_eq_ofCandidates (d : Document) (o : Selection) (name : String) :
    d.extract o name = .ofCandidates d.lines (declaredCandidates o name d.root.preorder) := by
  rw [extract, Extraction.ofTree, candidates_eq_declared]

/-- Every source of an extraction is that of a candidate. -/
theorem Document.exists_candidate_of_mem_blocks {d : Document} {o : Selection} {name : String}
    {b : SourceBlock} (h : b ∈ (d.extract o name).blocks) :
    ∃ c ∈ declaredCandidates o name d.root.preorder, c.block? d.lines = some b := by
  rw [extract_eq_ofCandidates, Extraction.blocks_ofCandidates] at h
  exact List.mem_filterMap.mp h

/-- What a fragment becomes depends on the document and the directives directly before it alone. The
sources, the registered maps and the failures are those of the fragments found by looking back, in
document order; and neither a directive nor the mark to skip is seen across another node, a fragment
among them. -/
theorem Document.extract_eq_declared (d : Document) (o : Selection) (name : String)
    (r : Registry) :
    let declared := declaredCandidates o name d.root.preorder
    let blocks := declared.filterMap (·.block? d.lines)
    (d.extract o name).sources = blocks.map (·.source) ∧
      (d.extract o name).failures = declared.filterMap (·.failure? d.lines) ∧
      (r.enter name (d.extract o name)).maps? name = some (blocks.map (·.map)) ∧
      (∀ n : Node, n.isFragment o = true → n.directive? = none) ∧
      ∀ before n mid, n.directive? = none →
        directiveRun (before ++ n :: mid) = directiveRun mid := by
  intro declared blocks
  have hblocks : (d.extract o name).blocks = blocks := by
    rw [extract_eq_ofCandidates, Extraction.blocks_ofCandidates]
  refine ⟨?_, ?_, ?_, fun n ↦ Node.directive?_of_isFragment, fun before n mid h ↦
    directiveRun_append_cons h before mid⟩
  · rw [Extraction.sources, hblocks]
  · rw [extract_eq_ofCandidates, Extraction.failures_ofCandidates]
  · rw [Registry.maps?_enter, Extraction.maps, hblocks]

end FencedCode
