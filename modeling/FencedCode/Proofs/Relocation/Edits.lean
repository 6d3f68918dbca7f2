import FencedCode.Proofs.Extraction.HostLines
import FencedCode.Proofs.Fragment.ContentOrder
import FencedCode.Proofs.Relocation.Ends

/-!
# Fixes as edits of the document

What a linter gives as the range of a fix is any pair of numbers. A fix that is left after
relocation is an edit of the document all the same: its range is not inverted, lies in the text, and
divides neither a character nor a terminator. And no fix is lost on the way without a reason: when
its diagnostic stays on its line, every fix in the content of a source whose range is not inverted
is kept.
-/

namespace FencedCode

open Markdown (Event)

/-- Whether a fix can be applied to a text: its range is not inverted and starts and stops at places
of the text. -/
structure Fix.IsEditOf (f : Fix) (text : List Char) : Prop where
  start_le_stop : f.start ≤ f.stop
  stop_le : f.stop ≤ Text.byteLength text
  isPlace_start : Text.IsPlace text f.start
  isPlace_stop : Text.IsPlace text f.stop

namespace FragmentMap

variable {m : FragmentMap}

/-- An offset moves to a place of the document, whatever it was. -/
theorem isPlace_of_hostOffset? {r s : Nat} (h : m.hostOffset? r = some s) :
    Text.IsPlace m.host.text s := by
  unfold hostOffset? at h
  split at h
  · cases h
  · obtain ⟨p, -, hs⟩ := Option.bind_eq_some_iff.mp h
    exact LineIndex.isPlace_of_offset? hs

/-- A fix that could be moved is an edit of the document. -/
theorem isEditOf_of_moveFix? {fix fix' : Fix} (h : m.moveFix? fix = some fix') :
    fix'.IsEditOf m.host.text := by
  obtain ⟨hstart, hstop, hle⟩ := moveFix?_eq_some h
  have hplace := isPlace_of_hostOffset? hstop
  exact ⟨hle, hplace.isBoundary.le, isPlace_of_hostOffset? hstart, hplace⟩

/-- The fixes of a diagnostic that was moved are edits of the document, for any map and any fixes
that the diagnostic had. -/
theorem isEditOf_of_mem_fixes {d d' : Diagnostic} (h : m.moveDiagnostic? d = some d') {fix' : Fix}
    (hfix : some fix' ∈ d'.fixes) : fix'.IsEditOf m.host.text := by
  obtain ⟨oneLine, hfixes⟩ := fixes_moveDiagnostic? h
  rw [hfixes] at hfix
  obtain ⟨fix?, -, hmoved⟩ := List.mem_map.mp hfix
  cases oneLine with
  | false => cases hmoved
  | true =>
    obtain ⟨fix, -, hfix'⟩ := Option.bind_eq_some_iff.mp hmoved
    exact isEditOf_of_moveFix? hfix'

/-- A fix from inside a character of a quoted block to the end of its source becomes one from behind
the character to the closing fence. -/
theorem isEditOf_of_mem_fixes_wide :
    let d : Diagnostic := { line := 1, column := 0, fix := some ⟨1, 3, "x"⟩ }
    let d' : Diagnostic := { line := 2, column := 2, fix := some ⟨13, 17, "x"⟩ }
    ∃ b ∈ ((Document.ofText "> ```js\r\n> é\r\n> ```\r\n".toList).extract {} "doc.md").blocks,
      b.map.moveDiagnostic? d = some d' ∧ (⟨13, 17, "x"⟩ : Fix).IsEditOf b.map.host.text := by
  intro d d'
  have htest : ((Document.ofText "> ```js\r\n> é\r\n> ```\r\n".toList).extract {} "doc.md").blocks.any
      (fun b ↦ b.map.moveDiagnostic? d = some d') = true := by
    decide +kernel
  obtain ⟨b, hb, hmoved⟩ := List.any_eq_true.mp htest
  have hd := of_decide_eq_true hmoved
  exact ⟨b, hb, hd, isEditOf_of_mem_fixes hd List.mem_cons_self⟩

/-- The fixes of a diagnostic that stays on its line are moved one by one. -/
theorem fixes_of_not_leavesLine {d d' : Diagnostic} (h : m.moveDiagnostic? d = some d')
    (hstays : ¬m.LeavesLine d d'.line) : d'.fixes = d.fixes.map (·.bind m.moveFix?) := by
  have hmoves := moves_of_moveDiagnostic? h
  have hmoved (fix : Option Fix) : m.MovesFix (m.LeavesLine d d'.line) fix (fix.bind m.moveFix?) :=
    m.movesFix_bind (iff_of_true rfl hstays) fix
  have hsuggestions : d'.suggestions.map (·.fix) =
      d.suggestions.map fun s ↦ s.fix.bind m.moveFix? := by
    rw [← List.forall₂_eq_eq_eq, List.forall₂_map_left_iff, List.forall₂_map_right_iff]
    refine hmoves.suggestions.flip.imp ?_
    rintro s' s ⟨-, hfix⟩
    exact hfix.unique (hmoved s.fix)
  rw [Diagnostic.fixes, Diagnostic.fixes, hsuggestions, hmoves.fix.unique (hmoved d.fix),
    List.map_cons, List.map_map]
  rfl

end FragmentMap

/-- Whether the offsets of a source from `first` on move to the document in order, and fixes with
them. -/
structure SourceBlock.MovesInOrder (b : SourceBlock) (first : Nat) : Prop where
  exists_hostOffset?_le : ∀ r r', first ≤ r → r ≤ r' → r' ≤ Text.byteLength b.source.text →
    ∃ s s', b.map.hostOffset? r = some s ∧ b.map.hostOffset? r' = some s' ∧ s ≤ s'
  hostOffset?_eq_none : ∀ r, Text.byteLength b.source.text < r → b.map.hostOffset? r = none
  /-- A fix is kept when its diagnostic stays on its line. -/
  exists_fix : ∀ d d', b.map.moveDiagnostic? d = some d' → ¬b.map.LeavesLine d d'.line →
    ∀ (i : Nat) (fix : Fix), d.fixes[i]? = some (some fix) → first ≤ fix.start →
      fix.start ≤ fix.stop → fix.stop ≤ Text.byteLength b.source.text →
      ∃ start stop, d'.fixes[i]? = some (some ⟨start, stop, fix.text⟩) ∧
        b.map.hostOffset? fix.start = some start ∧ b.map.hostOffset? fix.stop = some stop

/-- In a source that is not empty the offsets below the directives move to the document in order,
when the end of its block has an offset there. -/
theorem SourceBlock.MadeOf.movesInOrder {x : LineIndex} {n : Node} {ds : List Directive}
    {id : FragmentId} {b : SourceBlock} {tag : List Char} {body : CodeLines}
    {content : List (Nat × List Char)} (h : MadeOf x n ds id b tag body content)
    (hx : x.byteLength < signedLimit) (hne : b.source.text ≠ [])
    (hstop : ∃ s, x.offset? n.range.stop = some s) :
    b.MovesInOrder (Text.byteLength (directiveText ds)) := by
  constructor
  · intro r r' hfirst hle hlast
    exact h.exists_hostOffset?_le hx hne hstop hfirst hle hlast
  · intro r hr
    rw [← h.generated_text] at hr
    exact if_pos hr
  · intro d d' hd hstays i fix hfix hfirst hle hlast
    obtain ⟨start, stop, hstart, hstop', hle'⟩ :=
      h.exists_hostOffset?_le hx hne hstop hfirst hle hlast
    refine ⟨start, stop, ?_, hstart, hstop'⟩
    rw [FragmentMap.fixes_of_not_leavesLine hd hstays, List.getElem?_map, hfix, Option.map_some,
      Option.bind_some]
    exact congrArg some (FragmentMap.moveFix?_eq_some_iff.mpr ⟨hstart, hstop', hle', rfl⟩)

namespace Document

/-- The nodes of a document stop at a place that has an offset. -/
theorem exists_offset?_stop {text : List Char} {events : List Event} {n : Node}
    (h : n ∈ (ofEvents text events).root.preorder) :
    ∃ s, (LineIndex.ofText text).offset? n.range.stop = some s := by
  obtain ⟨s, hs⟩ := Node.exists_place_of_mem_ofEvents h
  rw [hs]
  exact LineIndex.exists_offset?_position _ _

/-- In every source of a document that is not empty, the offsets below the directives, that of the
end included, move to the document in order, and the fixes there are kept. -/
theorem movesInOrder_extract {text : List Char} (events : List Event)
    (hx : Text.byteLength text < signedLimit) (o : Selection) (name : String) {b : SourceBlock}
    (hb : b ∈ ((ofEvents text events).extract o name).blocks) (hne : b.source.text ≠ []) :
    let x := LineIndex.ofText text
    ∃ c ∈ declaredCandidates o name (ofEvents text events).root.preorder, ∃ body content,
      c.block? x = some b ∧ CodeLines.ofNode x c.node (containerIndent x c.node) = .ok body ∧
      fragmentLines x body.first body.count = .ok content ∧
      b.source.text = directiveText c.directives ++
        Text.joinLines (content.map fun l ↦ (dropIndent (containerIndent x c.node) l.2).2) ∧
      b.MovesInOrder (Text.byteLength (directiveText c.directives)) := by
  intro x
  obtain ⟨c, hc, hblock⟩ := exists_candidate_of_mem_blocks hb
  obtain ⟨tag, body, content, h⟩ := Candidate.exists_madeOf_of_block? hblock
  have hstop := exists_offset?_stop (mem_of_mem_declaredCandidates hc).1
  exact ⟨c, hc, body, content, hblock, h.body_eq, h.content_eq, h.text_eq,
    h.movesInOrder hx hne hstop⟩

/-- The comment for a directive of two lines takes up 16 bytes of a source. -/
theorem movesInOrder_extract_directedText :
    ∃ b ∈ ((ofText directedText).extract {} "doc.md").blocks,
      b.source.text = "/*eslint\na: 0*/\nb\n".toList ∧ b.MovesInOrder 16 := by
  have hx : Text.byteLength directedText < signedLimit := by decide +kernel
  have htest : ((ofText directedText).extract {} "doc.md").blocks.any
      (fun b ↦ b.source.text = "/*eslint\na: 0*/\nb\n".toList) = true := by
    decide +kernel
  obtain ⟨b, hb, htext⟩ := List.any_eq_true.mp htest
  have hsource := of_decide_eq_true htext
  obtain ⟨c, hc, -, -, -, -, -, -, hmoves⟩ :=
    movesInOrder_extract _ hx {} "doc.md" hb (hsource ▸ List.cons_ne_nil _ _)
  have hfirst : (declaredCandidates {} "doc.md" (ofText directedText).root.preorder).all
      (fun c ↦ Text.byteLength (directiveText c.directives) = 16) = true := by
    decide +kernel
  rw [of_decide_eq_true (List.all_eq_true.mp hfirst c hc)] at hmoves
  exact ⟨b, hb, hsource, hmoves⟩

end Document

end FencedCode
