import FencedCode.Proofs.Fragment.Offsets
import FencedCode.Proofs.LineIndex.Places

/-!
# The order of content

The places of a source below its directives are those on its content lines and the end. Each comes
from a place of the document that has a byte offset there, and they come in the same order: from one
line to the next whatever was taken off the two, and from the last line to the closing fence or to
the end of the block. So below the directives byte offsets move to the document in order.
-/

namespace FencedCode

/-- The text of the directives at the start of a source. -/
def directiveText (ds : List Directive) : List Char :=
  Text.joinLines (ds.flatMap Directive.commentLines)

private theorem count_feed_directiveText (ds : List Directive) :
    (directiveText ds).count '\n' = directiveHeight ds := by
  apply Text.count_feed_joinLines
  intro l hl
  obtain ⟨d, -, hl⟩ := List.mem_flatMap.mp hl
  exact Text.not_mem_of_mem_splitFeeds hl

/-- The place of the document that the end of a source comes from. -/
def CodeLines.endPlace (body : CodeLines) (x : LineIndex) (n : Node)
    (content : List (Nat × List Char)) : Position :=
  let stop := body.stop x n (containerIndent x n) content
  ⟨stop.line, shiftColumn stop.column 1 1, none⟩

/-- A place of a source on a content line or at the end, and the place of the document that it comes
from. -/
inductive ContentPlace (x : LineIndex) (n : Node) (ds : List Directive) (body : CodeLines)
    (content : List (Nat × List Char)) : Position → Position → Prop
  | line {k m c : Nat} {line : List Char} (hk : content[k]? = some (m, line)) (hc : 1 ≤ c)
      (hlength : c ≤ (dropIndent (containerIndent x n) line).2.length + 1) (o : Option Nat) :
      ContentPlace x n ds body content ⟨directiveHeight ds + 1 + k, c, o⟩
        ⟨m, (dropIndent (containerIndent x n) line).1 + c, none⟩
  | stop (o : Option Nat) :
      ContentPlace x n ds body content ⟨directiveHeight ds + body.count + 1, 1, o⟩
        (body.endPlace x n content)

namespace SourceBlock.MadeOf

variable {x : LineIndex} {n : Node} {ds : List Directive} {id : FragmentId} {b : SourceBlock}
  {tag : List Char} {body : CodeLines} {content : List (Nat × List Char)}

/-- A source is the text of its directives and then its content lines. -/
theorem text_eq (h : MadeOf x n ds id b tag body content) :
    b.source.text = directiveText ds ++
      Text.joinLines (content.map fun l ↦ (dropIndent (containerIndent x n) l.2).2) := by
  rw [h.source_eq, sourceLines, Text.joinLines_append]
  rfl

/-- A source that is not empty has a line. -/
theorem height_pos (h : MadeOf x n ds id b tag body content) (hne : b.source.text ≠ []) :
    0 < directiveHeight ds + body.count := by
  apply Nat.pos_of_ne_zero
  intro hzero
  have hlines : sourceLines ds (containerIndent x n) content = [] := by
    apply List.length_eq_zero_iff.mp
    rw [sourceLines, List.length_append, List.length_map, h.length_content]
    exact hzero
  rw [h.source_eq, hlines] at hne
  exact hne rfl

/-- Content and end come from these places of the document. -/
theorem hostPosition?_of_contentPlace (h : MadeOf x n ds id b tag body content)
    (hx : x.byteLength < signedLimit) (hpos : 0 < directiveHeight ds + body.count)
    {q p : Position} (hq : ContentPlace x n ds body content q p) :
    b.map.hostPosition? q = some p := by
  cases hq with
  | line hk hc hlength o => exact h.hostPosition?_content hx hk hc hlength o
  | stop o => exact h.hostPosition?_end hx hpos o

/-- The places that content lines come from have an offset in the document. -/
private theorem exists_offset?_line (h : MadeOf x n ds id b tag body content) {k m c : Nat}
    {line : List Char} (hk : content[k]? = some (m, line)) (hc : 1 ≤ c)
    (hlength : c ≤ (dropIndent (containerIndent x n) line).2.length + 1) :
    ∃ s, x.offset? ⟨m, (dropIndent (containerIndent x n) line).1 + c, none⟩ = some s := by
  have htotal := length_dropIndent (containerIndent x n) line
  exact LineIndex.exists_offset?_of_lineText? (h.getElem?_content hk).2 (by omega) (by omega) none

/-- The end of a source comes from behind the container prefix of the closing fence, or from the end
of the last content line, or from the end of the block, but from no column behind that. -/
private theorem endPlace_cases (h : MadeOf x n ds id b tag body content) (hx : x.byteLength < signedLimit)
    (hpos : 0 < directiveHeight ds + body.count) :
    (∃ line, x.lineText? n.range.stop.line = some line ∧
        n.range.start.line + body.count < n.range.stop.line ∧ body.endPlace x n content =
          ⟨n.range.stop.line, (dropIndent (containerIndent x n) line).1 + 1, none⟩) ∨
      (∃ line, x.lineText? (n.range.start.line + body.count) = some line ∧ 0 < body.count ∧
        body.endPlace x n content = ⟨n.range.start.line + body.count, line.length + 1, none⟩) ∨
      (body.count = 0 ∧ (body.endPlace x n content).line = n.range.stop.line ∧
        1 ≤ (body.endPlace x n content).column ∧
        (body.endPlace x n content).column ≤ max 1 n.range.stop.column) := by
  have hend := h.hostPosition?_end hx hpos none
  rcases CodeLines.ofNode_eq_ok h.body_eq with ⟨hclosed, hbody⟩ | ⟨-, hbody⟩
  · left
    have hlt := hclosed.1
    obtain ⟨line, hline, hplace⟩ := h.hostPosition?_end_closed hx (by rw [hbody]) hpos
    have hcount : n.range.start.line + body.count < n.range.stop.line := by
      rw [hbody]
      simp only
      omega
    exact ⟨line, hline, hcount, Option.some.inj (hend.symm.trans (hplace none))⟩
  · have hclosing : body.closing = none := by rw [hbody]
    right
    by_cases hcount : 0 < body.count
    · left
      obtain ⟨line, hline, hplace⟩ := h.hostPosition?_end_open hx hclosing hcount
      exact ⟨line, hline, hcount, Option.some.inj (hend.symm.trans (hplace none))⟩
    · right
      have hnil : content = [] := by
        apply List.length_eq_zero_iff.mp
        rw [h.length_content]
        omega
      have hstop : body.stop x n (containerIndent x n) content = n.range.stop := by
        rw [hnil, CodeLines.stop, hclosing, List.getLast?_nil]
      have hword := signedWord_natCast_le n.range.stop.column
      have hshift := natCast_shiftColumn n.range.stop.column 1 1
      rw [Int.add_sub_cancel] at hshift
      have hend : body.endPlace x n content =
          ⟨n.range.stop.line, shiftColumn n.range.stop.column 1 1, none⟩ := by
        rw [CodeLines.endPlace, hstop]
      rw [hend]
      refine ⟨Nat.eq_zero_of_not_pos hcount, rfl, ?_, ?_⟩
      · simp only
        omega
      · simp only
        omega

/-- The place that the end of a source comes from has an offset, when that is so of the end of the
block. -/
theorem exists_offset?_endPlace (h : MadeOf x n ds id b tag body content)
    (hx : x.byteLength < signedLimit) (hpos : 0 < directiveHeight ds + body.count)
    (hstop : ∃ s, x.offset? n.range.stop = some s) :
    ∃ s, x.offset? (body.endPlace x n content) = some s := by
  rcases h.endPlace_cases hx hpos with ⟨line, hline, -, hend⟩ | ⟨line, hline, -, hend⟩ |
    ⟨-, hline, hcolumn, hle⟩
  · have htotal := length_dropIndent (containerIndent x n) line
    rw [hend]
    exact LineIndex.exists_offset?_of_lineText? hline (by omega) (by omega) none
  · rw [hend]
    exact LineIndex.exists_offset?_of_lineText? hline (by omega) (by omega) none
  · obtain ⟨last, hlast, hfirst, hlength⟩ := LineIndex.exists_offset?_iff.mp hstop
    apply LineIndex.exists_offset?_iff.mpr
    exact ⟨last, by rw [hline, hlast], hcolumn, by omega⟩

/-- It is not before a place that a content line comes from. -/
theorem le_endPlace (h : MadeOf x n ds id b tag body content) (hx : x.byteLength < signedLimit)
    (hpos : 0 < directiveHeight ds + body.count) {k m c : Nat} {line : List Char}
    (hk : content[k]? = some (m, line))
    (hlength : c ≤ (dropIndent (containerIndent x n) line).2.length + 1) (o : Option Nat) :
    ⟨m, (dropIndent (containerIndent x n) line).1 + c, o⟩ ≤ body.endPlace x n content := by
  obtain ⟨rfl, hline⟩ := h.getElem?_content hk
  have hcount := (List.getElem?_eq_some_iff.mp hk).1
  rw [h.length_content] at hcount
  rw [Position.le_def]
  rcases h.endPlace_cases hx hpos with ⟨last, -, hlt, hend⟩ | ⟨last, hlast, -, hend⟩ | ⟨hzero, -⟩
  · left
    rw [hend]
    simp only
    omega
  · rw [hend]
    by_cases hlt : k + 1 < body.count
    · left
      simp only
      omega
    · right
      have hnumber : n.range.start.line + 1 + k = n.range.start.line + body.count := by omega
      rw [hnumber, hlast] at hline
      obtain rfl := Option.some.inj hline
      have htotal := length_dropIndent (containerIndent x n) last
      refine ⟨hnumber, ?_⟩
      simp only
      omega
  · omega

/-- Content and end come from places of the document that have an offset there. -/
theorem exists_offset?_of_contentPlace (h : MadeOf x n ds id b tag body content)
    (hx : x.byteLength < signedLimit) (hpos : 0 < directiveHeight ds + body.count)
    (hstop : ∃ s, x.offset? n.range.stop = some s) {q p : Position}
    (hq : ContentPlace x n ds body content q p) : ∃ s, x.offset? p = some s := by
  cases hq with
  | line hk hc hlength o => exact h.exists_offset?_line hk hc hlength
  | stop o => exact h.exists_offset?_endPlace hx hpos hstop

/-- The places that content and end come from are in their order. -/
theorem le_of_contentPlace (h : MadeOf x n ds id b tag body content)
    (hx : x.byteLength < signedLimit) (hpos : 0 < directiveHeight ds + body.count)
    {q p q' p' : Position} (hq : ContentPlace x n ds body content q p)
    (hq' : ContentPlace x n ds body content q' p') (hle : q ≤ q') : p ≤ p' := by
  cases hq with
  | @line k m c line hk hc hlength o =>
    cases hq' with
    | stop o' => exact h.le_endPlace hx hpos hk hlength none
    | @line k' m' c' line' hk' hc' hlength' o' =>
      have hnumber := (h.getElem?_content hk).1
      have hnumber' := (h.getElem?_content hk').1
      rw [Position.le_def] at hle ⊢
      simp only at hle ⊢
      by_cases hlt : k < k'
      · left
        omega
      · right
        obtain rfl : k = k' := by omega
        obtain rfl : line = line' := by
          have heq := hk.symm.trans hk'
          simp only [Option.some.injEq, Prod.mk.injEq] at heq
          exact heq.2
        omega
  | stop o =>
    cases hq' with
    | stop o' => exact Position.le_refl _
    | line hk' hc' hlength' o' =>
      have hcount := (List.getElem?_eq_some_iff.mp hk').1
      rw [h.length_content] at hcount
      rw [Position.le_def] at hle
      simp only at hle
      omega

/-- From the end of its directives on, every offset of a source has the position of a place on a
content line or of the end. -/
theorem exists_contentPlace (h : MadeOf x n ds id b tag body content) {r : Nat}
    (hr : Text.byteLength (directiveText ds) ≤ r) :
    ∃ p, ContentPlace x n ds body content (b.map.generated.position r) p := by
  have hfirst : directiveHeight ds + 1 ≤ (b.map.generated.position r).line := by
    have hline := b.map.generated.position_line_le hr
    rw [LineIndex.position_line (h.generated_text.trans h.text_eq),
      count_feed_directiveText] at hline
    exact hline
  have hlast := (b.map.generated.position_line_mem r).2
  rw [h.lineCount_generated] at hlast
  obtain ⟨g, i, hg, hi, hcolumn⟩ := b.map.generated.exists_line?_position r
  generalize b.map.generated.position r = q at *
  obtain ⟨number, column, o⟩ := q
  obtain ⟨k, rfl⟩ := Nat.exists_eq_add_of_le hfirst
  obtain rfl : column = i + 1 := hcolumn
  by_cases hk : k < body.count
  · obtain ⟨line, hget, -⟩ := h.exists_getElem?_content hk
    have hlength := h.length_text_generated_le hget hg
    exact ⟨_, .line hget (Nat.le_add_left 1 i) (by omega) o⟩
  · have hcount : k = body.count := by
      simp only at hlast
      omega
    subst hcount
    obtain rfl : g = ⟨Text.byteLength b.source.text, []⟩ :=
      Option.some.inj (hg.symm.trans h.around_end.line?_eq)
    obtain rfl : i = 0 := Nat.le_zero.mp hi
    rw [Nat.add_right_comm]
    exact ⟨_, .stop o⟩

/-- From the end of its directives to its own end, the offsets of a source have offsets in the
document, in order. -/
theorem exists_hostOffset?_le (h : MadeOf x n ds id b tag body content)
    (hx : x.byteLength < signedLimit) (hne : b.source.text ≠ [])
    (hstop : ∃ s, x.offset? n.range.stop = some s) {r r' : Nat}
    (hfirst : Text.byteLength (directiveText ds) ≤ r) (hle : r ≤ r')
    (hlast : r' ≤ Text.byteLength b.source.text) :
    ∃ s s', b.map.hostOffset? r = some s ∧ b.map.hostOffset? r' = some s' ∧ s ≤ s' := by
  have hpos := h.height_pos hne
  obtain ⟨p, hp⟩ := h.exists_contentPlace hfirst
  obtain ⟨p', hp'⟩ := h.exists_contentPlace (hfirst.trans hle)
  obtain ⟨s, hs⟩ := h.exists_offset?_of_contentPlace hx hpos hstop hp
  obtain ⟨s', hs'⟩ := h.exists_offset?_of_contentPlace hx hpos hstop hp'
  refine ⟨s, s', ?_, ?_, ?_⟩
  · rw [h.hostOffset?_eq (hle.trans hlast), h.hostPosition?_of_contentPlace hx hpos hp,
      Option.bind_some, hs]
  · rw [h.hostOffset?_eq hlast, h.hostPosition?_of_contentPlace hx hpos hp', Option.bind_some, hs']
  · apply (LineIndex.le_iff_of_offset? hs hs').mp
    exact h.le_of_contentPlace hx hpos hp hp' (LineIndex.position_mono hle)

end SourceBlock.MadeOf

end FencedCode
