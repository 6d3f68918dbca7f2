import FencedCode.Proofs.Fragment.Offsets
import FencedCode.Proofs.LineIndex.Edit

/-!
# Edits of a source brought back to its document

An edit within a content line that lost a full indent of container prefix has the same effect in the
document: when its range is brought back and the document is edited there, the source made again is
the edited source. The prefix run of the edited line may have grown or shrunk, but an indent's worth
of it is left.
-/

namespace FencedCode

private theorem containerIndent_congr {x y : LineIndex} {n : Node}
    (h : y.lineText? n.range.start.line = x.lineText? n.range.start.line) :
    containerIndent y n = containerIndent x n := by
  unfold containerIndent
  rw [h]

/-- Whether the last line closes the block depends on the first and the last line only. -/
theorem Node.ClosedByLastLine.congr {x y : LineIndex} {n : Node} {indent : Nat}
    (h : n.ClosedByLastLine x indent)
    (hstart : y.lineText? n.range.start.line = x.lineText? n.range.start.line)
    (hstop : y.lineText? n.range.stop.line = x.lineText? n.range.stop.line) :
    n.ClosedByLastLine y indent := by
  unfold ClosedByLastLine
  rw [hstart, hstop]
  exact h

/-- A terminated line edited behind its container prefix is freed of the same prefix, and all other
lines stay as they are. -/
theorem dropIndent_replaceBytes {x : LineIndex} {n : Nat} {l : Line} {before : List (List Char)}
    {after : List Char} (h : x.Around n l before after) (hl : Text.Terminated l.raw)
    {stripped lead mid rest : List Char} (htext : l.text = stripped ++ (lead ++ mid ++ rest))
    (hmember : ∀ c ∈ stripped, ContainerPrefix.isMember c = true)
    (hreturn : '\r' ∉ lead ++ mid ++ rest) {new : List Char} (hnew : '\r' ∉ new ∧ '\n' ∉ new)
    {y : LineIndex} (hy : y = .ofText (Text.replaceBytes
      (l.start + Text.byteLength (stripped ++ lead))
      (l.start + Text.byteLength (stripped ++ lead ++ mid)) new x.text)) :
    (∃ changed, y.lineText? n = some changed ∧
      (dropIndent stripped.length changed).2 = lead ++ new ++ rest) ∧
        ∀ m, m ≠ n → y.lineText? m = x.lineText? m := by
  obtain ⟨terminator, hterminator, hraw⟩ : ∃ terminator, (terminator = ['\n'] ∨
      terminator = ['\r', '\n']) ∧ l.raw = l.text ++ terminator := by
    rcases Line.raw_eq_of_terminated l.start hl with hraw | hraw
    · exact ⟨_, .inl rfl, hraw⟩
    · exact ⟨_, .inr rfl, hraw⟩
  have hfeed : '\n' ∉ stripped ++ (lead ++ new ++ rest) := by
    have hold := LineIndex.not_mem_text_of_line? h.line?_eq
    rw [htext] at hold
    simp only [List.mem_append, not_or] at hold ⊢
    exact ⟨hold.1, ⟨hold.2.1.1, hnew.2⟩, hold.2.2⟩
  have hchanged : Text.Terminated (stripped ++ (lead ++ new ++ rest) ++ terminator) := by
    rcases hterminator with rfl | rfl
    · exact Text.terminated_append hfeed
    · exact Text.terminated_append_return hfeed
  have hcut : l.raw = stripped ++ lead ++ mid ++ (rest ++ terminator) := by
    rw [hraw, htext]
    simp
  have hreplace := h.replaceBytes_eq hcut new
  rw [show stripped ++ lead ++ new ++ (rest ++ terminator) =
    stripped ++ (lead ++ new ++ rest) ++ terminator by simp] at hreplace
  rw [hy, hreplace]
  refine ⟨⟨_, ?_, dropIndent_text l.start hmember ?_ hterminator⟩,
    fun m ↦ h.lineText?_change hl hchanged⟩
  · rw [LineIndex.lineText?, (h.change hchanged).line?_eq]
    rfl
  · simp only [List.mem_append, not_or] at hreturn ⊢
    exact ⟨⟨hreturn.1.1, hnew.1⟩, hreturn.2⟩

namespace SourceBlock.MadeOf

variable {x : LineIndex} {n : Node} {ds : List Directive} {id : FragmentId} {b : SourceBlock}
  {tag : List Char} {body : CodeLines} {content : List (Nat × List Char)}

/-- Another document that differs in one content line has a source that differs in that line. -/
private theorem exists_of_lineText?_eq (h : MadeOf x n ds id b tag body content)
    (hclosed : n.ClosedByLastLine x (containerIndent x n)) {k : Nat} {line : List Char}
    (hk : content[k]? = some (n.range.start.line + 1 + k, line)) {y : LineIndex}
    {changed : List Char} (hline : y.lineText? (n.range.start.line + 1 + k) = some changed)
    (hothers : ∀ m, m ≠ n.range.start.line + 1 + k → y.lineText? m = x.lineText? m) :
    ∃ b', SourceBlock.ofNode y n ds id = .ok b' ∧
      b'.source.text = Text.joinLines ((sourceLines ds (containerIndent x n) content).set
        (directiveHeight ds + k) (dropIndent (containerIndent x n) changed).2) := by
  obtain ⟨comments, hcomments⟩ := h.directives
  have hbody := Except.ok.inj (h.body_eq.symm.trans (CodeLines.ofNode_of_closed hclosed))
  obtain ⟨hlen, hcontent⟩ := fragmentLines_eq_ok_iff.mp h.content_eq
  have hklt := (List.getElem?_eq_some_iff.mp hk).1
  have hcount : body.count = n.range.stop.line - 1 - n.range.start.line := by rw [hbody]
  have hstart := hothers n.range.start.line (by omega)
  have hstop := hothers n.range.stop.line (by omega)
  have hindent := containerIndent_congr hstart
  have hclosed' := hclosed.congr hstart hstop
  rw [← hindent] at hclosed'
  have hbody' := CodeLines.ofNode_of_closed hclosed'
  rw [← hbody] at hbody'
  have hcontent' : fragmentLines y body.first body.count =
      .ok (content.set k (n.range.start.line + 1 + k, changed)) := by
    refine fragmentLines_eq_ok_iff.mpr ⟨by rw [List.length_set, hlen], ?_⟩
    intro j l hl
    rw [List.getElem?_set] at hl
    split at hl
    · next hj =>
      obtain rfl : (n.range.start.line + 1 + k, changed) = l := by simpa [hklt] using hl
      rw [h.first_eq, ← hj]
      exact ⟨rfl, hline⟩
    · next hj =>
      obtain ⟨hnumber, hl⟩ := hcontent j l hl
      refine ⟨hnumber, ?_⟩
      rw [hothers _ (by rw [h.first_eq]; omega)]
      exact hl
  obtain ⟨b', hb', hmade⟩ := exists_madeOf id h.tag_eq hcomments hbody' hcontent'
  refine ⟨b', hb', ?_⟩
  rw [hmade.source_eq, hindent, sourceLines, sourceLines, directiveHeight,
    List.set_append_right _ _ (Nat.le_add_right _ _), Nat.add_sub_cancel_left, List.map_set]

/-- Replacing a range of bytes of a content line of a source changes that line. -/
theorem replaceBytes_source (h : MadeOf x n ds id b tag body content) {k m : Nat}
    {line : List Char} (hk : content[k]? = some (m, line)) {g : Line}
    (hg : b.map.generated.line? (directiveHeight ds + 1 + k) = some g) {lead mid rest : List Char}
    (hcut : (dropIndent (containerIndent x n) line).2 = lead ++ mid ++ rest) (new : List Char) :
    Text.replaceBytes (g.start + Text.byteLength lead) (g.start + Text.byteLength (lead ++ mid))
        new b.source.text =
      Text.joinLines ((sourceLines ds (containerIndent x n) content).set (directiveHeight ds + k)
        (lead ++ new ++ rest)) := by
  have hget := getElem?_sourceLines ds (containerIndent x n) hk
  have har := LineIndex.around_joinLines h.not_mem_of_mem_sourceLines hget
  have hline := har.line?_eq
  rw [show directiveHeight ds + k + 1 = directiveHeight ds + 1 + k by omega] at hline
  rw [h.map_eq] at hg
  obtain rfl := Option.some.inj (hg.symm.trans hline)
  have hline : (dropIndent (containerIndent x n) line).2 ++ ['\n'] =
      lead ++ mid ++ (rest ++ ['\n']) := by
    rw [hcut, List.append_assoc]
  have hreplace := har.replaceBytes_eq hline new
  rw [Text.flatten_map_feed, LineIndex.ofText_text] at hreplace
  rw [h.source_eq, hreplace, Text.joinLines_set (List.getElem?_eq_some_iff.mp hget).1]
  simp

end SourceBlock.MadeOf

/-- An edit within a content line of a source, brought back to the document, changes the source made
from the document in the same way. -/
theorem SourceBlock.ofNode_replaceBytes {x : LineIndex} (hx : x.byteLength < signedLimit) {n : Node}
    {ds : List Directive} {id : FragmentId} {b : SourceBlock}
    (hb : SourceBlock.ofNode x n ds id = .ok b)
    (hclosed : n.ClosedByLastLine x (containerIndent x n)) {k : Nat}
    (hk : n.range.start.line + 1 + k < n.range.stop.line) {line : List Char}
    (hline : x.lineText? (n.range.start.line + 1 + k) = some line)
    (hindent : (dropIndent (containerIndent x n) line).1 = containerIndent x n)
    (hreturn : '\r' ∉ (dropIndent (containerIndent x n) line).2) {start stop : Nat}
    (hrange : b.map.generated.OnLine (directiveHeight ds + 1 + k) start stop) {new : List Char}
    (hnew : '\r' ∉ new ∧ '\n' ∉ new) :
    ∃ start' stop', b.map.hostOffset? start = some start' ∧ b.map.hostOffset? stop = some stop' ∧
      x.OnLine (n.range.start.line + 1 + k) start' stop' ∧
        ∃ b', SourceBlock.ofNode (.ofText (Text.replaceBytes start' stop' new x.text)) n ds id =
            .ok b' ∧
          b'.source.text = Text.replaceBytes start stop new b.source.text := by
  obtain ⟨tag, body, content, h⟩ := SourceBlock.ofNode_eq_ok_iff.mp hb
  have hbody := Except.ok.inj (h.body_eq.symm.trans (CodeLines.ofNode_of_closed hclosed))
  have hcount : k < body.count := by
    rw [hbody]
    simp only
    omega
  obtain ⟨line', hget, hline'⟩ := h.exists_getElem?_content hcount
  obtain rfl : line = line' := Option.some.inj (hline.symm.trans hline')
  -- the range divides the text of the source's line
  obtain ⟨g, hg, hgraw⟩ := h.line?_generated hget
  obtain ⟨_, _, hgaround⟩ := LineIndex.exists_around hg
  have hgtext : g.text = (dropIndent (containerIndent x n) line).2 := by
    rw [show g = ⟨g.start, g.raw⟩ from rfl, hgraw]
    exact Line.text_append_feed fun hlast ↦ hreturn (List.mem_of_getLast? hlast)
  obtain ⟨lead, mid, rest, hcut, rfl, rfl⟩ := hgaround.exists_of_onLine hrange
  -- and with it that of the document's line, behind the container prefix
  obtain ⟨l, hl, rfl⟩ := Option.map_eq_some_iff.mp hline
  obtain ⟨before, after, haround⟩ := LineIndex.exists_around hl
  have hupto : lead ++ mid <+: g.text := ⟨rest, hcut.symm⟩
  have hright := h.hostOffset?_lead hx hget hl hg hgtext hupto
  have hleft := h.hostOffset?_lead hx hget hl hg hgtext ((List.prefix_append lead mid).trans hupto)
  rw [hgtext] at hcut
  obtain ⟨stripped, htext, htake, hlength, hmember⟩ :=
    exists_dropIndent (containerIndent x n) l.text
  rw [htake] at hleft hright
  rw [hindent] at hlength
  rw [hcut] at htext hreturn
  have hclosed' := hclosed
  obtain ⟨-, -, last, -, -, hlast, -, -⟩ := hclosed'
  obtain ⟨⟨changed, hchanged, hdrop⟩, hothers⟩ := dropIndent_replaceBytes haround
    (haround.terminated_of_lt hlast hk) htext hmember hreturn hnew rfl
  obtain ⟨b', hb', hsource⟩ := h.exists_of_lineText?_eq hclosed hget hchanged hothers
  rw [← List.append_assoc] at hright
  have hparts : l.text = stripped ++ lead ++ mid ++ rest := by
    rw [htext]
    simp
  refine ⟨_, _, hleft, hright, haround.onLine hparts, b', hb', ?_⟩
  rw [hsource, ← hlength, hdrop, hlength, h.replaceBytes_source hget hg hcut]

/-- The edit of a quoted line is the edit of its source. -/
theorem SourceBlock.ofNode_replaceBytes_quotedBlock : ∃ b,
    SourceBlock.ofNode quotedDocument quotedBlock [quotedDirective] ⟨"doc.md", 0⟩ = .ok b ∧
      ∃ start stop, b.map.hostOffset? 16 = some start ∧ b.map.hostOffset? 18 = some stop ∧
        quotedDocument.OnLine 5 start stop ∧
          ∃ b', SourceBlock.ofNode (.ofText (Text.replaceBytes start stop "> d".toList
              quotedDocument.text)) quotedBlock [quotedDirective] ⟨"doc.md", 0⟩ = .ok b' ∧
            b'.source.text = Text.replaceBytes 16 18 "> d".toList b.source.text := by
  obtain ⟨b, hb, htest⟩ := exists_of_any_toOption (x := SourceBlock.ofNode quotedDocument
      quotedBlock [quotedDirective] ⟨"doc.md", 0⟩)
    (p := fun b ↦ b.map.generated.line? 3 = some ⟨16, "  b\n".toList⟩ ∧
      Text.IsRange b.map.generated.text 16 18) (by decide +kernel)
  obtain ⟨hline, hrange⟩ := of_decide_eq_true htest
  have hx : quotedDocument.byteLength < signedLimit := by decide +kernel
  have hclosed : quotedBlock.ClosedByLastLine quotedDocument
      (containerIndent quotedDocument quotedBlock) :=
    ⟨by decide, "> ```js".toList, "> ```".toList, ⟨.backtick, 3⟩, by decide +kernel,
      by decide +kernel, by decide +kernel, by decide +kernel⟩
  have htext : quotedDocument.lineText? 5 = some ">   b".toList := by decide +kernel
  exact ⟨b, hb, SourceBlock.ofNode_replaceBytes (k := 0) hx hb hclosed (by decide) htext
    (by decide +kernel) (by decide +kernel) ⟨⟨_, hline, by decide, by decide⟩, hrange⟩
    (by decide)⟩

end FencedCode
