import FencedCode.Proofs.Extraction.Failures
import FencedCode.Proofs.Extraction.Numbering
import FencedCode.Proofs.Fragment.Offsets
import FencedCode.Proofs.Node.FencedPlace

/-!
# Which lines of a document a fragment's map leads to

A stretch leads to as many lines of the document as it has lines, and a directive's stretch has no
more than its comment. So no position of a source, nor any outside of it, comes from a line that has
nothing to do with the fragment: the lines that a map leads to are those of its directives' comments
and those of its block below the opening fence. Only the end of a source without content lines comes
from the fence. This holds for whatever events the document was made of, as long as its lines can be
counted in a word.
-/

namespace FencedCode

open Markdown (Event)

namespace Range

/-- Whether a line is one of those that a range reaches over. -/
def HasLine (r : Range) (line : Nat) : Prop := r.start.line ≤ line ∧ line ≤ r.stop.line

/-- Whether a range does not end above its first line, and ends on a line that a word holds. -/
structure IsUpright (r : Range) : Prop where
  line_le : r.start.line ≤ r.stop.line
  line_lt : r.stop.line < UInt64.size

end Range

namespace NodeKind

/-- No construct ends before it starts, whatever is left out at its ends. -/
theorem start_le_stop_span (k : NodeKind) (text : List Char) (s : Markdown.Span) :
    (k.span text s).start ≤ (k.span text s).stop := by
  apply Markdown.Span.start_le_stop_dropTerminator
  simp only [Markdown.Span.clamp]
  split
  · have hskipped (start stop : Nat) : ContainerPrefix.byteLength
        (firstLine (Text.slice start stop text)) ≤ stop - start :=
      (ContainerPrefix.byteLength_le _).trans
        ((Text.byteLength_le_of_prefix (List.takeWhile_prefix _)).trans
          (Text.byteLength_takeBytes_le _ _))
    have hle := hskipped (min s.start (Text.byteLength text))
      (max (min s.stop (Text.byteLength text)) (min s.start (Text.byteLength text)))
    omega
  · omega

end NodeKind

namespace Document

variable {text : List Char} {events : List Event} {n : Node}

/-- The nodes of a document do not stop on a line above the one they start on. -/
theorem start_line_le_stop_line (h : n ∈ (ofEvents text events).root.preorder) :
    n.range.start.line ≤ n.range.stop.line := by
  obtain ⟨s, hs⟩ := Node.exists_place_of_mem_ofEvents h
  rw [hs]
  exact LineIndex.position_line_le _ (NodeKind.start_le_stop_span _ _ _)

/-- And so they are upright, when the lines of the document can be counted in a word. -/
theorem isUpright_range (hlines : (LineIndex.ofText text).lineCount < UInt64.size)
    (h : n ∈ (ofEvents text events).root.preorder) : n.range.IsUpright :=
  ⟨start_line_le_stop_line h, (liesIn_of_mem_preorder h).stop_le.trans_lt hlines⟩

end Document

namespace Stretch

/-- A stretch that is no higher than what it comes from leads to lines of that. -/
theorem hasLine_place {s : Stretch} {q : Position} (hq : s.Holds q)
    (hheight : s.generated.stop.line ≤ s.generated.start.line + s.host.height)
    (hhost : s.host.IsUpright) : s.host.HasLine (s.place q).line := by
  have hline := hq.line_le
  obtain ⟨hle, hlt⟩ := hhost
  rw [Range.height] at hheight
  rw [place_line, word_eq (by omega)]
  constructor
  · omega
  · omega

/-- A stretch of one line leads to one line. -/
theorem line_place_of_flat {s : Stretch} {q : Position} (hq : s.Holds q)
    (hflat : s.generated.stop.line = s.generated.start.line)
    (hhost : s.host.start.line < UInt64.size) : (s.place q).line = s.host.start.line := by
  have hline := hq.line_le
  rw [place_line, word_eq (by omega)]
  omega

end Stretch

/-- The text of a directive is taken to be no higher than its comment. -/
theorem Directive.hasLine_place {d : Directive} {first : Nat} {q : Position}
    (hq : (d.stretch first).Holds q) (hd : d.location.IsUpright) :
    d.location.HasLine ((d.stretch first).place q).line := by
  refine Stretch.hasLine_place hq ?_ hd
  simp only [stretch, generatedRange]
  omega

namespace SourceBlock.MadeOf

variable {x : LineIndex} {n : Node} {ds : List Directive} {id : FragmentId} {b : SourceBlock}
  {tag : List Char} {body : CodeLines} {content : List (Nat × List Char)}

/-- The content lines stand below the opening fence. -/
theorem hasLine_content (h : MadeOf x n ds id b tag body content) {k m : Nat} {line : List Char}
    (hk : content[k]? = some (m, line)) : n.range.start.line < m ∧ m ≤ n.range.stop.line := by
  obtain ⟨rfl, -⟩ := h.getElem?_content hk
  have hlt := (List.getElem?_eq_some_iff.mp hk).1
  rw [h.length_content] at hlt
  rcases CodeLines.ofNode_eq_ok h.body_eq with ⟨-, hbody⟩ | ⟨-, hbody⟩
  all_goals
    rw [hbody] at hlt
    simp only at hlt
    omega

/-- The end of a source comes from a line below the opening fence, or there are none. -/
theorem stop_line (h : MadeOf x n ds id b tag body content)
    (hn : n.range.start.line ≤ n.range.stop.line) :
    (n.range.start.line < (body.stop x n (containerIndent x n) content).line ∧
        (body.stop x n (containerIndent x n) content).line ≤ n.range.stop.line) ∨
      (body.count = 0 ∧
        (body.stop x n (containerIndent x n) content).line = n.range.start.line) := by
  rcases CodeLines.ofNode_eq_ok h.body_eq with ⟨hclosed, hbody⟩ | ⟨-, hbody⟩
  · left
    have hlt := hclosed.1
    have hclosing : body.closing = some n.range.stop.line := by rw [hbody]
    simp only [CodeLines.stop, hclosing]
    omega
  · have hclosing : body.closing = none := by rw [hbody]
    cases hlast : content.getLast? with
    | some l =>
      left
      rw [List.getLast?_eq_getElem?] at hlast
      have hline := h.hasLine_content hlast
      rw [← List.getLast?_eq_getElem?] at hlast
      simpa only [CodeLines.stop, hclosing, hlast] using hline
    | none =>
      right
      have hcount : body.count = 0 := by
        rw [← h.length_content, List.getLast?_eq_none_iff.mp hlast, List.length_nil]
      have hheight : body.count = n.range.stop.line - n.range.start.line := by rw [hbody]
      simp only [CodeLines.stop, hclosing, hlast]
      omega

/-- The lines that the map of a source leads to. -/
theorem line_hostPosition? (h : MadeOf x n ds id b tag body content) (hn : n.range.IsUpright)
    (hds : ∀ d ∈ ds, d.location.IsUpright) {q p : Position}
    (hp : b.map.hostPosition? q = some p) :
    (∃ d ∈ ds, d.location.HasLine p.line) ∨
      (n.range.start.line < p.line ∧ p.line ≤ n.range.stop.line) ∨
      (body.count = 0 ∧ q.line = b.map.generated.lineCount ∧ q.column = 1 ∧
        p.line = n.range.start.line) := by
  obtain ⟨hle, hlt⟩ := hn
  rw [FragmentMap.hostPosition?, h.map_eq] at hp
  obtain ⟨s, hs, hq, rfl⟩ := h.ascending.hostPosition?_eq_some_iff.mp hp
  rcases mem_sourceStretches hs with hs | ⟨k, m, line, hget, rfl⟩ | ⟨-, rfl⟩
  · left
    obtain ⟨d, hmem, first, rfl⟩ := exists_of_mem_directiveStretches hs
    exact ⟨d, hmem, d.hasLine_place hq (hds d hmem)⟩
  · right
    left
    have hcontent := h.hasLine_content hget
    rw [Stretch.line_place_of_flat hq rfl (hcontent.2.trans_lt hlt)]
    exact hcontent
  · right
    have hstop := h.stop_line hle
    rw [Stretch.line_place_of_flat hq rfl (by simp only [closingStretch, Range.point]; omega)]
    obtain ⟨hstart, hend⟩ := hq
    simp only [closingStretch, Range.point, Position.le_def, h.length_content] at hstart hend
    rw [h.lineCount_generated]
    rcases hstop with hbelow | ⟨hcount, hfence⟩
    · exact .inl hbelow
    · exact .inr ⟨hcount, by omega, by omega, hfence⟩

end SourceBlock.MadeOf

namespace Document

/-- The fragment maps of a document lead to lines of the document alone, and of these to lines of
the comments whose directives the fragment has and to lines of its block below the opening fence; to
the line of the fence leads only the end of a source that has no content lines. This is so for every
position, also for one that the source does not have. -/
theorem line_hostPosition?_extract {text : List Char} (events : List Event)
    (hlines : (LineIndex.ofText text).lineCount < UInt64.size) (o : Selection) (name : String)
    {b : SourceBlock} (hb : b ∈ ((ofEvents text events).extract o name).blocks) :
    ∃ c ∈ declaredCandidates o name (ofEvents text events).root.preorder, ∃ body,
      c.block? (LineIndex.ofText text) = some b ∧
      CodeLines.ofNode (LineIndex.ofText text) c.node
        (containerIndent (LineIndex.ofText text) c.node) = .ok body ∧
      ∀ q p, b.map.hostPosition? q = some p →
        (1 ≤ p.line ∧ p.line ≤ (LineIndex.ofText text).lineCount) ∧ 1 ≤ p.column ∧
        ((∃ d ∈ c.directives, d.location.HasLine p.line) ∨
          (c.node.range.start.line < p.line ∧ p.line ≤ c.node.range.stop.line) ∨
          (body.count = 0 ∧ q.line = b.map.generated.lineCount ∧ q.column = 1 ∧
            p.line = c.node.range.start.line)) := by
  obtain ⟨c, hc, hblock⟩ := exists_candidate_of_mem_blocks hb
  obtain ⟨tag, body, content, h⟩ := Candidate.exists_madeOf_of_block? hblock
  have hmem := (mem_of_mem_declaredCandidates hc).1
  have hds : ∀ d ∈ c.directives, d.location.IsUpright := by
    intro d hd
    obtain ⟨m, hm, hd⟩ := exists_range_of_mem_directives hc hd
    rw [hd]
    exact isUpright_range hlines hm
  refine ⟨c, hc, body, hblock, h.body_eq, fun q p hp ↦ ?_⟩
  have hline := h.line_hostPosition? (isUpright_range hlines hmem) hds hp
  refine ⟨?_, PositionMap.one_le_column hp, hline⟩
  have hn := liesIn_of_mem_preorder hmem
  rcases hline with ⟨d, hd, hstart, hstop⟩ | ⟨hstart, hstop⟩ | ⟨-, -, -, hfence⟩
  · obtain ⟨m, hm, hd⟩ := exists_range_of_mem_directives hc hd
    have hlies := liesIn_of_mem_preorder hm
    rw [hd] at hstart hstop
    exact ⟨hlies.one_le_start.trans hstart, hstop.trans hlies.stop_le⟩
  · exact ⟨hn.one_le_start.trans hstart.le, hstop.trans hn.stop_le⟩
  · rw [hfence]
    exact ⟨hn.one_le_start, hn.start_le⟩

/-- A text with a code block that a directive of two lines applies to. -/
def directedText : List Char := "<!-- eslint\na: 0 -->\n\n```js\nb\n```\n".toList

/-- A position in the second line of a directive comes from the second line of its comment, or from
a line of the block. -/
theorem line_hostPosition?_extract_directedText :
    (LineIndex.ofText directedText).lineCount < UInt64.size ∧
      ∃ b ∈ ((ofText directedText).extract {} "doc.md").blocks,
        b.map.hostPosition? ⟨2, 3, none⟩ = some ⟨2, 1, none⟩ ∧
        ∃ c ∈ declaredCandidates {} "doc.md" (ofText directedText).root.preorder,
          (∃ d ∈ c.directives, d.location.HasLine 2) ∨ c.node.range.start.line ≤ 2 := by
  have hlines : (LineIndex.ofText directedText).lineCount < UInt64.size := by decide +kernel
  have htest : ((ofText directedText).extract {} "doc.md").blocks.any
      (fun b ↦ b.map.hostPosition? ⟨2, 3, none⟩ = some ⟨2, 1, none⟩) = true := by
    decide +kernel
  obtain ⟨b, hb, hplace⟩ := List.any_eq_true.mp htest
  have hq := of_decide_eq_true hplace
  obtain ⟨c, hc, body, -, -, hline⟩ :=
    line_hostPosition?_extract _ hlines {} "doc.md" hb
  refine ⟨hlines, b, hb, hq, c, hc, ?_⟩
  rcases (hline _ _ hq).2.2 with hcomment | ⟨hbelow, -⟩ | ⟨-, -, -, hfence⟩
  · exact .inl hcomment
  · exact .inr hbelow.le
  · exact .inr hfence.ge

end Document

end FencedCode
