import FencedCode.Proofs.Fragment.Offsets
import FencedCode.Proofs.LineIndex.Places

/-!
# The bytes of a content line

On a content line that does not end in a carriage return, byte offsets move to the document byte for
byte: an offset is taken for the next place between characters, and keeps its distance from the
start of the line's text. Between two such places the document has the characters that the source
has, whatever prefix and terminators the line has there.
-/

namespace FencedCode

namespace SourceBlock

/-- Byte offsets in `text`, which line `g` of a source starts with, move byte for byte to line `l`
of the document, where it stands behind `lead`. -/
structure MovesBytes (b : SourceBlock) (x : LineIndex) (g l : Line) (lead text : List Char) :
    Prop where
  /-- An offset goes where the next place between characters is. -/
  hostOffset?_eq : ∀ o, g.start ≤ o → o ≤ g.start + Text.byteLength text →
    ∃ r, IsLeast {r | Text.IsBoundary text r ∧ o - g.start ≤ r} r ∧
      b.map.hostOffset? o = some (l.start + Text.byteLength lead + r)
  /-- What stands between two places stands between those they go to. -/
  slice_eq : ∀ start stop, g.start ≤ start → start ≤ stop →
    stop ≤ g.start + Text.byteLength text → Text.IsBoundary b.source.text start →
    Text.IsBoundary b.source.text stop → ∃ start' stop', b.map.hostOffset? start = some start' ∧
      b.map.hostOffset? stop = some stop' ∧ start' ≤ stop' ∧
      Text.slice start' stop' x.text = Text.slice start stop b.source.text

namespace MadeOf

variable {x : LineIndex} {n : Node} {ds : List Directive} {id : FragmentId} {b : SourceBlock}
  {tag : List Char} {body : CodeLines} {content : List (Nat × List Char)}

/-- The characters between two places of a content line stand between the places they go to. -/
theorem slice_content (h : MadeOf x n ds id b tag body content) {k m : Nat} {l g : Line}
    (hk : content[k]? = some (m, l.text)) (hl : x.line? m = some l)
    (hg : b.map.generated.line? (directiveHeight ds + 1 + k) = some g)
    {upto upto' : List Char} (hupto : upto <+: upto')
    (hupto' : upto' <+: (dropIndent (containerIndent x n) l.text).2) :
    let lead := l.text.take (dropIndent (containerIndent x n) l.text).1
    Text.slice (l.start + Text.byteLength (lead ++ upto))
        (l.start + Text.byteLength (lead ++ upto')) x.text =
      Text.slice (g.start + Text.byteLength upto) (g.start + Text.byteLength upto')
        b.source.text := by
  intro lead
  have hraw := h.raw_generated hk hg
  obtain ⟨terminator, hterm⟩ := LineIndex.exists_raw_eq hl
  have hle : Text.byteLength upto ≤ Text.byteLength upto' := by
    obtain ⟨rest, rfl⟩ := hupto
    rw [Text.byteLength_append]
    omega
  have hsource : ∀ cs, cs <+: (dropIndent (containerIndent x n) l.text).2 →
      b.map.generated.textBefore (directiveHeight ds + 1 + k) ++ cs <+: b.source.text := by
    intro cs hcs
    rw [← h.generated_text]
    exact LineIndex.textBefore_append_prefix hg (hraw ▸ hcs.trans (List.prefix_append _ _))
  have hdocument : ∀ cs, cs <+: (dropIndent (containerIndent x n) l.text).2 →
      x.textBefore m ++ (lead ++ cs) <+: x.text := by
    rintro cs ⟨rest, hrest⟩
    refine LineIndex.textBefore_append_prefix hl ⟨rest ++ terminator, ?_⟩
    rw [hterm, ← List.append_assoc, List.append_assoc lead, hrest]
    exact congrArg (· ++ terminator) (List.take_append_drop _ _)
  have hslice := Text.append_slice (hsource upto (hupto.trans hupto')) (hsource upto' hupto')
    (by rw [Text.byteLength_append, Text.byteLength_append]; omega)
  have hslice' := Text.append_slice (hdocument upto (hupto.trans hupto')) (hdocument upto' hupto')
    (by simp only [Text.byteLength_append]; omega)
  simp only [Text.byteLength_append, LineIndex.byteLength_textBefore hg,
    LineIndex.byteLength_textBefore hl, List.append_assoc,
    List.append_cancel_left_eq] at hslice hslice'
  rw [Text.byteLength_append, Text.byteLength_append]
  exact List.append_cancel_left (hslice'.symm.trans hslice)

/-- Offsets in a content line that does not end in a carriage return move byte for byte. -/
theorem movesBytes (h : MadeOf x n ds id b tag body content) (hx : x.byteLength < signedLimit)
    {k m : Nat} {l g : Line} (hk : content[k]? = some (m, l.text)) (hl : x.line? m = some l)
    (hg : b.map.generated.line? (directiveHeight ds + 1 + k) = some g)
    (hreturn : (dropIndent (containerIndent x n) l.text).2.getLast? ≠ some '\r') :
    b.MovesBytes x g l (l.text.take (dropIndent (containerIndent x n) l.text).1)
      (dropIndent (containerIndent x n) l.text).2 := by
  have hraw := h.raw_generated hk hg
  have htext : g.text = (dropIndent (containerIndent x n) l.text).2 := by
    rw [show g = ⟨g.start, _ ++ ['\n']⟩ by rw [← hraw]]
    exact Line.text_append_feed hreturn
  constructor
  · intro o hstart hstop
    obtain ⟨r, rfl⟩ := Nat.exists_eq_add_of_le hstart
    have hr : r ≤ Text.byteLength (dropIndent (containerIndent x n) l.text).2 := by omega
    have hleast := LineIndex.isLeast_charsBefore hr
    rw [← Nat.add_sub_cancel_left (n := g.start) (m := r)] at hleast
    refine ⟨_, hleast, ?_⟩
    rw [h.hostOffset?_within hx hk hl hg hr, htext, List.take_add, Text.byteLength_append,
      ← Nat.add_assoc, Nat.add_sub_cancel_left]
    rfl
  · intro first last hstart hle hstop hfirst hlast
    obtain ⟨before, after, har⟩ := LineIndex.exists_around hg
    have hplace : ∀ o, g.start ≤ o →
        o ≤ g.start + Text.byteLength (dropIndent (containerIndent x n) l.text).2 →
        Text.IsBoundary b.source.text o →
        ∃ upto, upto <+: (dropIndent (containerIndent x n) l.text).2 ∧
          o = g.start + Text.byteLength upto := by
      intro o hle hin hboundary
      rw [← h.generated_text] at hboundary
      obtain ⟨upto, ⟨rest, hupto⟩, rfl⟩ := har.exists_of_isBoundary hle
        (by rw [hraw, Text.byteLength_append]; omega) hboundary
      rw [hraw] at hupto
      exact ⟨upto, Text.prefix_of_byteLength_le hupto (by omega), rfl⟩
    obtain ⟨upto, hupto, rfl⟩ := hplace first hstart (by omega) hfirst
    obtain ⟨upto', hupto', rfl⟩ := hplace last (by omega) hstop hlast
    have hprefix : upto <+: upto' := by
      obtain ⟨rest, hrest⟩ := hupto
      obtain ⟨rest', hrest'⟩ := hupto'
      exact Text.prefix_of_byteLength_le (hrest.trans hrest'.symm) (by omega)
    have hoffset := h.hostOffset?_lead hx hk hl hg htext (htext.symm ▸ hupto)
    have hoffset' := h.hostOffset?_lead hx hk hl hg htext (htext.symm ▸ hupto')
    refine ⟨_, _, hoffset, hoffset', ?_, h.slice_content hk hl hg hprefix hupto'⟩
    simp only [Text.byteLength_append]
    omega

end MadeOf

/-- In the source of a fragment, every content line that does not end in a carriage return moves to
its line of the document byte for byte, behind the prefix that was taken off it there. -/
theorem ofNode_movesBytes {x : LineIndex} (hx : x.byteLength < signedLimit) {n : Node}
    {ds : List Directive} {id : FragmentId} {b : SourceBlock}
    (hb : SourceBlock.ofNode x n ds id = .ok b) :
    ∃ body, CodeLines.ofNode x n (containerIndent x n) = .ok body ∧ ∀ k < body.count, ∃ l g,
      x.line? (n.range.start.line + 1 + k) = some l ∧
        (LineIndex.ofText b.source.text).line? (directiveHeight ds + 1 + k) = some g ∧
        g.raw = (dropIndent (containerIndent x n) l.text).2 ++ ['\n'] ∧
        ((dropIndent (containerIndent x n) l.text).2.getLast? ≠ some '\r' →
          b.MovesBytes x g l (l.text.take (dropIndent (containerIndent x n) l.text).1)
            (dropIndent (containerIndent x n) l.text).2) := by
  obtain ⟨tag, body, content, h⟩ := ofNode_eq_ok_iff.mp hb
  refine ⟨body, h.body_eq, fun k hk ↦ ?_⟩
  obtain ⟨line, hget, hline⟩ := h.exists_getElem?_content hk
  obtain ⟨l, hl, rfl⟩ := Option.map_eq_some_iff.mp hline
  obtain ⟨g, hg, hraw⟩ := h.line?_generated hget
  have hgenerated : b.map.generated = .ofText b.source.text := by rw [h.map_eq, h.source_eq]
  exact ⟨l, g, hl, hgenerated ▸ hg, hraw, h.movesBytes hx hget hl hg⟩

/-- A quoted code block with characters of two, three and four bytes, its lines ended by carriage
returns and line feeds. -/
def wideDocument : LineIndex := .ofText "> ```js\r\n> é€😀\r\n> ```\r\n".toList

/-- The code block of `wideDocument`. -/
def wideBlock : Node :=
  { kind := .code, range := ⟨⟨1, 3, none⟩, ⟨3, 6, none⟩⟩, lang := some "js".toList }

/-- Characters of two, three and four bytes move so, behind a quote mark and before a carriage
return. -/
theorem wideBlock_movesBytes :
    ∃ b l g, SourceBlock.ofNode wideDocument wideBlock [] ⟨"doc.md", 0⟩ = .ok b ∧
      wideDocument.line? 2 = some l ∧ (LineIndex.ofText b.source.text).line? 1 = some g ∧
      b.MovesBytes wideDocument g l "> ".toList "é€😀".toList := by
  have hx : wideDocument.byteLength < signedLimit := by decide +kernel
  obtain ⟨b, hb, -⟩ : ∃ b, SourceBlock.ofNode wideDocument wideBlock [] ⟨"doc.md", 0⟩ = .ok b ∧
      true = true := exists_of_any_toOption (by decide +kernel)
  obtain ⟨body, hbody, hlines⟩ := ofNode_movesBytes hx hb
  have hbody' : CodeLines.ofNode wideDocument wideBlock (containerIndent wideDocument wideBlock) =
      .ok ⟨2, 1, some 3⟩ := by
    decide +kernel
  obtain rfl := Except.ok.inj (hbody.symm.trans hbody')
  obtain ⟨l, g, hl, hg, -, hmoves⟩ := hlines 0 (by decide)
  refine ⟨b, l, g, hb, hl, hg, ?_⟩
  have hl' : wideDocument.line? 2 = some ⟨9, "> é€😀\r\n".toList⟩ := by decide +kernel
  obtain rfl := Option.some.inj (hl.symm.trans hl')
  exact hmoves (by decide +kernel)

end SourceBlock

end FencedCode
