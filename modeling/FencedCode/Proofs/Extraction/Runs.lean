import FencedCode.Extraction
import Mathlib.Data.List.DropRight

/-!
# The directives before a fragment

A reading of document order that looks back from each fragment instead of carrying a state along.
The directives of a fragment are those of the longest run of directive nodes that ends directly
before it, and its number is that of the fragments before it. The main statement is that the
candidates of an extraction are these.
-/

namespace FencedCode

/-- What a node says as a directive, with its place: only HTML nodes say something. -/
def Node.directive? (n : Node) : Option Directive :=
  if n.kind = .html then (Directive.text? (n.value.getD [])).map fun text ↦ ⟨text, n.range⟩
  else none

/-- Whether a node is a code block in an accepted language. -/
def Node.isFragment (o : Selection) (n : Node) : Bool :=
  n.kind == .code && n.languageTag?.any o.accepts

/-- The directives of the longest run of directive nodes at the end of some nodes. -/
def directiveRun (before : List Node) : List Directive :=
  (before.rtakeWhile fun n ↦ n.directive?.isSome).filterMap Node.directive?

/-- Whether directives hold the mark that withholds them. -/
def holdsSkipMark (run : List Directive) : Bool := run.any (·.text == Directive.skipMark)

/-- The candidate that a node is when it comes after the nodes `before`. -/
def candidateAfter? (o : Selection) (document : String) (before : List Node) (n : Node) :
    Option Candidate :=
  let run := directiveRun before
  if n.isFragment o && !(o.skipMarked && holdsSkipMark run) then
    some ⟨⟨document, before.countP (·.isFragment o)⟩, n, if holdsSkipMark run then [] else run⟩
  else none

/-- The candidates among nodes in document order, each found by looking back from it. -/
def declaredCandidates (o : Selection) (document : String) (ns : List Node) : List Candidate :=
  ns.zipIdx.filterMap fun (n, k) ↦ candidateAfter? o document (ns.take k) n

private theorem Node.directive?_of_html {n : Node} (h : n.kind = .html) :
    n.directive? = (Directive.text? (n.value.getD [])).map fun text ↦ ⟨text, n.range⟩ := by
  rw [directive?, if_pos h]

private theorem Node.directive?_of_not_html {n : Node} (h : n.kind ≠ .html) :
    n.directive? = none := by
  rw [directive?, if_neg h]

/-- What a node says stands where the node does. -/
theorem Node.location_of_directive? {n : Node} {d : Directive} (h : n.directive? = some d) :
    d.location = n.range := by
  unfold directive? at h
  split at h
  · obtain ⟨text, -, rfl⟩ := Option.map_eq_some_iff.mp h
    rfl
  · cases h

/-- A fragment is a code block, which says nothing as a directive. -/
theorem Node.directive?_of_isFragment {o : Selection} {n : Node} (h : n.isFragment o = true) :
    n.directive? = none := by
  apply directive?_of_not_html
  intro hkind
  simp [isFragment, hkind] at h

/-- A directive node adds to the run before it. -/
theorem directiveRun_concat_some {before : List Node} {n : Node} {d : Directive}
    (h : n.directive? = some d) : directiveRun (before ++ [n]) = directiveRun before ++ [d] := by
  rw [directiveRun, List.rtakeWhile_concat_pos _ _ _ (by simp [h]), List.filterMap_append]
  simp [directiveRun, h]

/-- Any other node ends every run. -/
theorem directiveRun_concat_none {before : List Node} {n : Node} (h : n.directive? = none) :
    directiveRun (before ++ [n]) = [] := by
  rw [directiveRun, List.rtakeWhile_concat_neg _ _ _ (by simp [h]), List.filterMap_nil]

/-- No run reaches back over a node that is no directive. -/
theorem directiveRun_append_cons {n : Node} (h : n.directive? = none) (before mid : List Node) :
    directiveRun (before ++ n :: mid) = directiveRun mid := by
  induction mid using List.reverseRecOn with
  | nil => exact directiveRun_concat_none h
  | append_singleton mid m ih =>
    rw [← List.cons_append, ← List.append_assoc]
    cases hm : m.directive? with
    | none => rw [directiveRun_concat_none hm, directiveRun_concat_none hm]
    | some d => rw [directiveRun_concat_some hm, directiveRun_concat_some hm, ih]

namespace PendingDirectives

/-- What waits after a run of directives: nothing but the mark once the run holds it. -/
def ofRun (run : List Directive) : PendingDirectives :=
  if holdsSkipMark run then ⟨[], true⟩ else ⟨run, false⟩

/-- Without a directive nothing is pending. -/
@[simp] theorem ofRun_nil : ofRun [] = none := rfl

/-- The directives of a run are pending, unless one of them is a mark to skip. -/
@[simp] theorem directives_ofRun (run : List Directive) :
    (ofRun run).directives = if holdsSkipMark run then [] else run := by
  unfold ofRun
  split <;> rfl

/-- A block is skipped where the run before it holds the mark. -/
@[simp] theorem skipping_ofRun (run : List Directive) :
    (ofRun run).skipping = holdsSkipMark run := by
  unfold ofRun
  split <;> simp_all

/-- A directive noted after a run is the last one of a longer run. -/
private theorem note_ofRun {html text : List Char} (h : Directive.text? html = some text)
    (run : List Directive) (location : Range) :
    (ofRun run).note html location = ofRun (run ++ [⟨text, location⟩]) := by
  have hholds : holdsSkipMark (run ++ [⟨text, location⟩]) =
      (holdsSkipMark run || text == Directive.skipMark) := by
    simp [holdsSkipMark]
  simp only [note, h]
  by_cases hmark : text = Directive.skipMark
  · rw [if_pos hmark, ofRun, hholds]
    simp [hmark]
  · cases hrun : holdsSkipMark run with
    | true => simp [hmark, ofRun, hholds, hrun]
    | false => simp [hmark, ofRun, hholds, hrun]

/-- An HTML text that is no directive drops all that waits. -/
private theorem note_eq_none {html : List Char} (h : Directive.text? html = .none) (p : PendingDirectives)
    (location : Range) : p.note html location = none := by
  simp only [note, h]

/-- What waits after a node is what the run that ends with the node leaves waiting. -/
theorem note_directiveRun {n : Node} (h : n.kind = .html) (before : List Node) :
    (ofRun (directiveRun before)).note (n.value.getD []) n.range =
      ofRun (directiveRun (before ++ [n])) := by
  cases htext : Directive.text? (n.value.getD []) with
  | none =>
    have hn : n.directive? = Option.none := by rw [Node.directive?_of_html h, htext]; rfl
    rw [note_eq_none htext, directiveRun_concat_none hn, ofRun_nil]
  | some text =>
    have hn : n.directive? = some ⟨text, n.range⟩ := by rw [Node.directive?_of_html h, htext]; rfl
    rw [note_ofRun htext, directiveRun_concat_some hn]

end PendingDirectives

/-- What one more node adds to the candidates: the state after it is that of the run and the number
of fragments up to it. -/
private theorem candidatesFrom_cons (o : Selection) (document : String) (before : List Node) (n : Node)
    (ns : List Node) :
    candidatesFrom o document (.ofRun (directiveRun before)) (before.countP (·.isFragment o))
        (n :: ns) =
      (candidateAfter? o document before n).toList ++
        candidatesFrom o document (.ofRun (directiveRun (before ++ [n])))
          ((before ++ [n]).countP (·.isFragment o)) ns := by
  rw [candidatesFrom, List.countP_append, List.countP_singleton]
  split
  · next hkind =>
    have hfragment : n.isFragment o = false := by simp [Node.isFragment, hkind]
    rw [PendingDirectives.note_directiveRun hkind]
    simp [candidateAfter?, hfragment]
  · next hkind =>
    have hn : n.directive? = none := Node.directive?_of_not_html (by simp [hkind])
    rw [directiveRun_concat_none hn, PendingDirectives.ofRun_nil]
    by_cases htag : n.languageTag?.any o.accepts = true
    · have hfragment : n.isFragment o = true := by simp [Node.isFragment, hkind, htag]
      cases hskip : o.skipMarked && holdsSkipMark (directiveRun before) with
      | true => simp [candidateAfter?, hfragment, htag, hskip]
      | false => simp [candidateAfter?, hfragment, htag, hskip]
    · have hfragment : n.isFragment o = false := by simp [Node.isFragment, hkind, htag]
      simp [candidateAfter?, hfragment, htag]
  · next hhtml hcode =>
    have hn : n.directive? = none := Node.directive?_of_not_html hhtml
    have hne : n.kind ≠ .code := hcode
    have hfragment : n.isFragment o = false := by simp [Node.isFragment, hne]
    rw [directiveRun_concat_none hn, PendingDirectives.ofRun_nil]
    simp [candidateAfter?, hfragment]

/-- The candidates among the nodes after some others are those found by looking back. -/
theorem candidatesFrom_directiveRun (o : Selection) (document : String) (before ns : List Node) :
    candidatesFrom o document (.ofRun (directiveRun before)) (before.countP (·.isFragment o)) ns =
      ns.zipIdx.filterMap fun (n, k) ↦ candidateAfter? o document (before ++ ns.take k) n := by
  induction ns generalizing before with
  | nil => rfl
  | cons n ns ih =>
    rw [candidatesFrom_cons, ih, List.zipIdx_cons, Nat.zero_add, List.zipIdx_succ,
      List.filterMap_cons, List.filterMap_map]
    simp only [List.take_zero, List.append_nil, Function.comp_def, List.take_succ_cons,
      List.append_assoc, List.singleton_append]
    cases candidateAfter? o document before n with
    | none => rfl
    | some c => rfl

/-- The candidates of a document tree are those found by looking back from each node. -/
theorem candidates_eq_declared (o : Selection) (document : String) (root : Node) :
    candidates o document root = declaredCandidates o document root.preorder := by
  have h := candidatesFrom_directiveRun o document [] root.preorder
  simp only [List.nil_append] at h
  exact h

end FencedCode
