import FencedCode.Proofs.Extraction.HostLines
import FencedCode.Proofs.Fragment.DirectiveText

/-!
# Which directives lead back to their comments

The directives of a document's fragments stand in comments of it. The main statement says for each
place of a directive's text in a source whether it comes from the document and from where, and that
all of them come from inside the comment exactly when the text fits it. A comment that has lines
without text below its directive is one that the text need not fit.
-/

namespace FencedCode

open Markdown (Event)

namespace Document

/-- The comments of a document are well placed, unless the text is too long for machine words. -/
theorem wellPlaced_of_mem_directives {text : List Char} {events : List Event} {o : Selection}
    {name : String} (htext : Text.byteLength text + 1 < sumLimit) {c : Candidate}
    (hc : c ∈ declaredCandidates o name (ofEvents text events).root.preorder) {d : Directive}
    (hd : d ∈ c.directives) : d.WellPlaced := by
  obtain ⟨m, hm, hlocation⟩ := exists_range_of_mem_directives hc hd
  obtain ⟨hstart, hstop⟩ := hasColumns_of_mem_directives htext hc hd
  obtain ⟨⟨honeStart, -⟩, honeStop, -⟩ := column_mem_of_mem_preorder hm
  have hlines : (LineIndex.ofText text).lineCount < UInt64.size :=
    (LineIndex.ofText text).lineCount_le.trans_lt (htext.trans (by decide))
  obtain ⟨hle, hlt⟩ := isUpright_range hlines hm
  rw [← hlocation] at honeStart honeStop hle hlt
  exact ⟨honeStart, hstart, honeStop, hstop, hle, hlt⟩

/-- Where the text of each directive of a fragment stands in its source and which of its places come
from the document, and from where; they all come from inside the comment of the directive exactly
when the text fits that. -/
theorem mapsBack_iff (text : List Char) (events : List Event) (o : Selection) (name : String)
    (htext : Text.byteLength text + 1 < sumLimit) {c : Candidate}
    (hc : c ∈ declaredCandidates o name (ofEvents text events).root.preorder) {b : SourceBlock}
    (hb : c.block? (LineIndex.ofText text) = some b)
    (hsource : Text.byteLength b.source.text < sumLimit) {before after : List Directive}
    {d : Directive} (hd : c.directives = before ++ d :: after) :
    let first := directiveHeight before + 1
    (∀ j l i, (Text.splitFeeds d.text)[j]? = some l →
      (i < l.length → b.map.generated.charAt? (Directive.textPlace first j i) = l[i]?) ∧
      (i ≤ l.length → ∀ p, b.map.hostPosition? (Directive.textPlace first j i) = some p ↔
        d.Reaches j i ∧ p = d.commentPlace j i)) ∧
    (b.MapsBack d first ↔ d.FitsComment) := by
  intro first
  obtain ⟨tag, body, content, h⟩ := Candidate.exists_madeOf_of_block? hb
  rw [hd] at h
  have hplaced := wellPlaced_of_mem_directives htext hc (show d ∈ c.directives by simp [hd])
  refine ⟨fun j l i hl ↦ ⟨fun hi ↦ h.charAt?_textPlace hl hi, fun hi p ↦ ?_⟩,
    h.mapsBack_iff_fitsComment hplaced hsource⟩
  exact h.hostPosition?_textPlace hplaced hsource hl hi

/-- The directive in the comment of `directedText`. -/
def directedComment : Directive :=
  ⟨"eslint\na: 0".toList, ⟨⟨1, 1, some 0⟩, ⟨2, 9, some 20⟩⟩⟩

/-- A directive of two lines that fills its comment leads back to it. -/
theorem mapsBack_iff_directedText :
    ∃ c ∈ declaredCandidates {} "doc.md" (ofText directedText).root.preorder, ∃ b,
      c.block? (LineIndex.ofText directedText) = some b ∧ c.directives = [directedComment] ∧
        directedComment.FitsComment ∧ b.MapsBack directedComment 1 := by
  have htest : (declaredCandidates {} "doc.md" (ofText directedText).root.preorder).any (fun c ↦
      (c.block? (LineIndex.ofText directedText)).any fun b ↦ c.directives = [directedComment] ∧
        Text.byteLength b.source.text < sumLimit) = true := by
    decide +kernel
  obtain ⟨c, hc, htest⟩ := List.any_eq_true.mp htest
  obtain ⟨b, hb, htest⟩ := (Option.any_eq_true _ _).mp htest
  obtain ⟨hd, hsource⟩ := of_decide_eq_true htest
  have htext : Text.byteLength directedText + 1 < sumLimit := by decide +kernel
  have hfits : directedComment.FitsComment := ⟨by decide, by decide, by decide⟩
  have hfirst : c.directives = [] ++ directedComment :: [] := hd
  exact ⟨c, hc, b, hb, hd, hfits,
    (mapsBack_iff directedText _ {} "doc.md" htext hc hb hsource hfirst).2.mpr hfits⟩

/-- Of a directive with line feeds around it only the first characters come from the document. -/
theorem not_mapsBack :
    let text := "<!--\neslint a\n-->\n\n```js\nx\n```\n".toList
    ¬∀ c ∈ declaredCandidates {} "doc.md" (ofText text).root.preorder, ∀ b,
      c.block? (LineIndex.ofText text) = some b →
        ∀ before d after, c.directives = before ++ d :: after →
          b.MapsBack d (directiveHeight before + 1) := by
  intro text hmaps
  have htest : (declaredCandidates {} "doc.md" (ofText text).root.preorder).any (fun c ↦
      (c.block? (LineIndex.ofText text)).any fun b ↦
        c.directives.map (·.text) = ["eslint a".toList] ∧
          b.map.hostPosition? (Directive.textPlace 1 0 4) = none) = true := by
    decide +kernel
  obtain ⟨c, hc, htest⟩ := List.any_eq_true.mp htest
  obtain ⟨b, hb, htest⟩ := (Option.any_eq_true _ _).mp htest
  obtain ⟨hd, hnone⟩ := of_decide_eq_true htest
  obtain ⟨d, hd, hdtext⟩ := List.map_eq_singleton_iff.mp hd
  obtain ⟨p, hp, -⟩ := hmaps c hc b hb [] d [] hd 0 "eslint a".toList 4
    (by rw [hdtext]; decide) (by decide)
  rw [show directiveHeight [] + 1 = 1 from rfl, hnone] at hp
  cases hp

end Document

end FencedCode
