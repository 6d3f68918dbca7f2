import FencedCode.Proofs.Fragment.Correspondence
import FencedCode.Proofs.LineIndex.Offsets

/-!
# Byte offsets of content

Offsets in the content of a source go through the lines of the source, the position map and the
lines of the document. On a content line they keep their distance, counted in characters, from the
start of the line's text; where that text ends in a carriage return, which the line feed after it
takes for its own, the place after the carriage return is taken for the one before it. The end of a
source goes to the closing fence, or to the end of the content.
-/

namespace FencedCode.SourceBlock.MadeOf

variable {x : LineIndex} {n : Node} {ds : List Directive} {id : FragmentId} {b : SourceBlock}
  {tag : List Char} {body : CodeLines} {content : List (Nat × List Char)}

private theorem host_eq (h : MadeOf x n ds id b tag body content) : b.map.host = x := by
  rw [h.map_eq]

/-- The index of the source is made of its text. -/
theorem generated_text (h : MadeOf x n ds id b tag body content) :
    b.map.generated.text = b.source.text := by
  rw [h.map_eq, h.source_eq]
  rfl

/-- An offset of a source goes to the document by its position. -/
theorem hostOffset?_eq (h : MadeOf x n ds id b tag body content) {r : Nat}
    (hr : r ≤ Text.byteLength b.source.text) :
    b.map.hostOffset? r = (b.map.hostPosition? (b.map.generated.position r)).bind x.offset? := by
  have hin : ¬b.map.generated.byteLength < r := by
    rw [LineIndex.byteLength, h.generated_text]
    exact Nat.not_lt.mpr hr
  rw [FragmentMap.hostOffset?, if_neg hin, h.host_eq]
  rfl

/-- A line of a source says no more than the content line that it was made from, and less where that
ends in a carriage return. -/
theorem length_text_generated_le (h : MadeOf x n ds id b tag body content) {k m : Nat}
    {line : List Char} (hk : content[k]? = some (m, line)) {g : Line}
    (hg : b.map.generated.line? (directiveHeight ds + 1 + k) = some g) :
    g.text.length ≤ (dropIndent (containerIndent x n) line).2.length := by
  have hraw := h.raw_generated hk hg
  obtain ⟨terminator, hterm⟩ := LineIndex.exists_raw_eq hg
  have hprefix : g.text <+: (dropIndent (containerIndent x n) line).2 ++ ['\n'] :=
    ⟨terminator, hterm.symm.trans hraw⟩
  refine ((List.prefix_concat_iff.mp hprefix).resolve_left fun heq ↦ ?_).length_le
  exact LineIndex.not_mem_text_of_line? hg (by simp [heq])

/-- An offset in a content line goes as many characters behind the start of the line's text as start
before it. -/
theorem hostOffset?_within (h : MadeOf x n ds id b tag body content)
    (hx : x.byteLength < signedLimit) {k m : Nat} {line : List Char}
    (hk : content[k]? = some (m, line)) {l g : Line} (hl : x.line? m = some l)
    (hg : b.map.generated.line? (directiveHeight ds + 1 + k) = some g) {r : Nat}
    (hr : r ≤ Text.byteLength (dropIndent (containerIndent x n) line).2) :
    b.map.hostOffset? (g.start + r) = some (l.start + Text.byteLength
      (line.take ((dropIndent (containerIndent x n) line).1 +
        LineIndex.charsBefore r g.text))) := by
  have hraw := h.raw_generated hk hg
  have hline : l.text = line := by
    have heq := (h.getElem?_content hk).2
    rw [LineIndex.lineText?, hl] at heq
    exact Option.some.inj heq
  have hlt : r < Text.byteLength g.raw := by
    have hfeed : Text.byteLength ['\n'] = 1 := by decide
    rw [hraw, Text.byteLength_append, hfeed]
    omega
  obtain ⟨before, after, har⟩ := LineIndex.exists_around hg
  have hlength := h.length_text_generated_le hk hg
  have hchars := LineIndex.charsBefore_le_length r g.text
  have htotal := length_dropIndent (containerIndent x n) line
  have hin : g.start + r ≤ Text.byteLength b.source.text := by
    rw [← h.generated_text, har.text_eq, Text.byteLength_append, Text.byteLength_append,
      har.start]
    omega
  have hplace := h.hostPosition?_content hx hk (Nat.le_add_left 1 (LineIndex.charsBefore r g.text))
    (by omega) (some (g.start + r))
  rw [h.hostOffset?_eq hin, har.position_eq (.inl hlt), hplace, Option.bind_some, ← Nat.add_assoc,
    LineIndex.offset?_eq hl (by rw [hline]; omega), hline]

/-- An offset between the characters of a content line goes to the same place in the document. -/
theorem hostOffset?_content (h : MadeOf x n ds id b tag body content)
    (hx : x.byteLength < signedLimit) {k m : Nat} {line : List Char}
    (hk : content[k]? = some (m, line)) {l g : Line}
    (hl : x.line? m = some l)
    (hg : b.map.generated.line? (directiveHeight ds + 1 + k) = some g) {i : Nat}
    (hi : i ≤ (dropIndent (containerIndent x n) line).2.length) :
    b.map.hostOffset?
        (g.start + Text.byteLength ((dropIndent (containerIndent x n) line).2.take i)) =
      some (l.start + Text.byteLength
        (line.take ((dropIndent (containerIndent x n) line).1 + min i g.text.length))) := by
  have hraw := h.raw_generated hk hg
  obtain ⟨terminator, hterm⟩ := LineIndex.exists_raw_eq hg
  have htake : (dropIndent (containerIndent x n) line).2.take i = g.raw.take i := by
    rw [hraw, List.take_append_of_le_length hi]
  have hle := Text.byteLength_le_of_prefix
    (List.take_prefix i (dropIndent (containerIndent x n) line).2)
  rw [h.hostOffset?_within hx hk hl hg hle, htake, LineIndex.charsBefore_take hterm]

/-- On a content line that does not end in a carriage return no place is taken for another one. -/
theorem hostOffset?_lead (h : MadeOf x n ds id b tag body content) (hx : x.byteLength < signedLimit)
    {k m : Nat} {line : List Char} (hk : content[k]? = some (m, line)) {l g : Line}
    (hl : x.line? m = some l)
    (hg : b.map.generated.line? (directiveHeight ds + 1 + k) = some g)
    (htext : g.text = (dropIndent (containerIndent x n) line).2)
    {lead : List Char} (hlead : lead <+: g.text) :
    b.map.hostOffset? (g.start + Text.byteLength lead) = some (l.start +
      Text.byteLength (line.take (dropIndent (containerIndent x n) line).1 ++ lead)) := by
  have hle := hlead.length_le
  have htake := List.prefix_iff_eq_take.mp hlead
  have hoffset := h.hostOffset?_content hx hk hl hg (i := lead.length) (by rw [← htext]; exact hle)
  have hdrop : line.drop (dropIndent (containerIndent x n) line).1 = g.text := htext.symm
  rw [← htext, ← htake, Nat.min_eq_left hle, List.take_add, hdrop, ← htake] at hoffset
  exact hoffset

/-- A source ends in an empty line. -/
theorem around_end (h : MadeOf x n ds id b tag body content) :
    b.map.generated.Around (directiveHeight ds + 1 + body.count)
      ⟨Text.byteLength b.source.text, []⟩
      ((sourceLines ds (containerIndent x n) content).map (· ++ ['\n'])) [] := by
  have hlength : (sourceLines ds (containerIndent x n) content).length + 1 =
      directiveHeight ds + 1 + body.count := by
    rw [sourceLines, List.length_append, List.length_map, h.length_content, directiveHeight]
    omega
  have har := LineIndex.around_joinLines_end h.not_mem_of_mem_sourceLines
  rw [hlength] at har
  rw [h.source_eq, h.map_eq]
  exact har

/-- The source has the lines of the comments and of the content, and an empty line at its end. -/
theorem lineCount_generated (h : MadeOf x n ds id b tag body content) :
    b.map.generated.lineCount = directiveHeight ds + 1 + body.count := by
  have hend := h.around_end
  rcases hend.rest with ⟨-, -, hsplit⟩ | ⟨⟨_, -, hraw⟩, -⟩
  · rw [LineIndex.lineCount, LineIndex.lines_eq, length_placeLines, hsplit, List.length_append,
      ← hend.number]
    rfl
  · simp at hraw

/-- Before that empty line stands the whole text. -/
theorem textBefore_end (h : MadeOf x n ds id b tag body content) :
    b.map.generated.textBefore (directiveHeight ds + 1 + body.count) = b.source.text := by
  have hwhole := h.around_end.text_eq
  rw [List.append_nil, List.append_nil, ← h.around_end.textBefore_eq, h.generated_text] at hwhole
  exact hwhole.symm

/-- The offset of the end goes through the position of the last, empty line. -/
theorem hostOffset?_end (h : MadeOf x n ds id b tag body content) :
    b.map.hostOffset? (Text.byteLength b.source.text) =
      (b.map.hostPosition? ⟨directiveHeight ds + body.count + 1, 1,
        some (Text.byteLength b.source.text)⟩).bind x.offset? := by
  have hposition : b.map.generated.position (Text.byteLength b.source.text) =
      ⟨directiveHeight ds + 1 + body.count, 1, some (Text.byteLength b.source.text)⟩ :=
    h.around_end.position_eq (r := 0) (.inr ⟨rfl, by simp, rfl⟩)
  rw [h.hostOffset?_eq (Nat.le_refl _), hposition, Nat.add_right_comm]

/-- With a closing fence the end goes behind that line's container prefix. -/
theorem hostOffset?_end_closed (h : MadeOf x n ds id b tag body content)
    (hx : x.byteLength < signedLimit) {m : Nat} (hclosing : body.closing = some m)
    (hpos : 0 < directiveHeight ds + body.count) : ∃ l, x.line? m = some l ∧
      b.map.hostOffset? (Text.byteLength b.source.text) = some (l.start +
        Text.byteLength (l.text.take (dropIndent (containerIndent x n) l.text).1)) := by
  obtain ⟨line, hline, hend⟩ := h.hostPosition?_end_closed hx hclosing hpos
  obtain ⟨l, hl, rfl⟩ := Option.map_eq_some_iff.mp hline
  have htotal := length_dropIndent (containerIndent x n) l.text
  refine ⟨l, hl, ?_⟩
  rw [h.hostOffset?_end, hend, Option.bind_some, LineIndex.offset?_eq hl (by omega)]

/-- Without a closing fence the end goes to the end of the last content line. -/
theorem hostOffset?_end_open (h : MadeOf x n ds id b tag body content)
    (hx : x.byteLength < signedLimit) (hclosing : body.closing = none) (hpos : 0 < body.count) :
    ∃ l, x.line? (n.range.start.line + body.count) = some l ∧
      b.map.hostOffset? (Text.byteLength b.source.text) =
        some (l.start + Text.byteLength (l.text.take l.text.length)) := by
  obtain ⟨line, hline, hend⟩ := h.hostPosition?_end_open hx hclosing hpos
  obtain ⟨l, hl, rfl⟩ := Option.map_eq_some_iff.mp hline
  refine ⟨l, hl, ?_⟩
  rw [h.hostOffset?_end, hend, Option.bind_some, LineIndex.offset?_eq hl (Nat.le_refl _)]

end FencedCode.SourceBlock.MadeOf
