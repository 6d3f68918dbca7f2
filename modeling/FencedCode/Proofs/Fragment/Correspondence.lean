import FencedCode.Proofs.Fragment.Indent
import FencedCode.Proofs.Fragment.Source

/-!
# Exact positions

The main promise of a source: each of its content lines is a line of the document less a container
prefix, the map leads from every place on it to the place of the same character in the document, and
apart from the end of the source no other place below the directives has one in the document.

Lines and columns are machine words on the way through the map. A text has fewer than `2 ^ 63` bytes
on any machine, the `signedLimit`, which keeps them exact.
-/

namespace FencedCode

namespace SourceBlock.MadeOf

variable {x : LineIndex} {n : Node} {ds : List Directive} {id : FragmentId} {b : SourceBlock}
  {tag : List Char} {body : CodeLines} {content : List (Nat × List Char)}

/-- There are as many content lines as the body counts. -/
theorem length_content (h : MadeOf x n ds id b tag body content) : content.length = body.count :=
  (fragmentLines_eq_ok_iff.mp h.content_eq).1

/-- The content starts on the line below the opening fence. -/
theorem first_eq (h : MadeOf x n ds id b tag body content) :
    body.first = n.range.start.line + 1 := by
  rcases CodeLines.ofNode_eq_ok h.body_eq with ⟨-, rfl⟩ | ⟨-, rfl⟩ <;> rfl

/-- The first line of a fragment is a line of the document, so its number is not zero. -/
theorem one_le_start (h : MadeOf x n ds id b tag body content) : 1 ≤ n.range.start.line := by
  obtain ⟨opening, hopening⟩ := CodeLines.exists_opening h.body_eq
  cases hline : n.range.start.line with
  | zero =>
    rw [hline] at hopening
    cases hopening
  | succ k => omega

/-- The content lines stand below the first line of the fragment, in their order. -/
theorem getElem?_content (h : MadeOf x n ds id b tag body content) {k m : Nat} {line : List Char}
    (hk : content[k]? = some (m, line)) :
    m = n.range.start.line + 1 + k ∧ x.lineText? m = some line := by
  obtain ⟨hm, hline⟩ := (fragmentLines_eq_ok_iff.mp h.content_eq).2 k (m, line) hk
  rw [h.first_eq] at hm hline
  rw [← hm] at hline
  exact ⟨hm, hline⟩

/-- Each content line is the text of its line in the document. -/
theorem exists_getElem?_content (h : MadeOf x n ds id b tag body content) {k : Nat}
    (hk : k < body.count) : ∃ line, content[k]? = some (n.range.start.line + 1 + k, line) ∧
      x.lineText? (n.range.start.line + 1 + k) = some line := by
  have hlen := h.length_content
  obtain ⟨⟨m, line⟩, hget⟩ : ∃ l, content[k]? = some l :=
    ⟨_, List.getElem?_eq_getElem (by omega)⟩
  obtain ⟨rfl, hline⟩ := h.getElem?_content hget
  exact ⟨line, hget, hline⟩

/-- Columns of a line below the first one are far from the limits of a machine word. -/
theorem length_lineText_lt (hx : x.byteLength < signedLimit) {m : Nat} {line : List Char}
    (hm : 2 ≤ m) (hline : x.lineText? m = some line) : line.length + 1 < signedLimit := by
  obtain ⟨l, hl, rfl⟩ := Option.map_eq_some_iff.mp hline
  have hlt := LineIndex.length_text_lt hl hm
  omega

/-- And so are the numbers of lines. -/
theorem word_eq_of_le_lineCount (hx : x.byteLength < signedLimit) {m : Nat}
    (hm : m ≤ x.lineCount) : word m = m := by
  have hcount := x.lineCount_le
  have hlimit : signedLimit + signedLimit = UInt64.size := rfl
  exact word_eq (by omega)

/-- The position for the end of a source is on a line of the document. -/
theorem stop_line_le (h : MadeOf x n ds id b tag body content) :
    (body.stop x n (containerIndent x n) content).line ≤ x.lineCount := by
  have hlength := h.length_content
  rcases CodeLines.ofNode_eq_ok h.body_eq with ⟨⟨-, -, last, -, -, hlast, -⟩, hbody⟩ | ⟨-, hbody⟩
  · have hclosing : body.closing = some n.range.stop.line := by rw [hbody]
    simp only [CodeLines.stop, hclosing]
    exact (LineIndex.exists_lineText?_iff.mp ⟨last, hlast⟩).2
  · have hclosing : body.closing = none := by rw [hbody]
    cases hlast : content.getLast? with
    | some l =>
      obtain ⟨m, line⟩ := l
      have hget := List.getLast?_eq_getElem? ▸ hlast
      obtain ⟨-, hline⟩ := h.getElem?_content hget
      simpa only [CodeLines.stop, hclosing, hlast] using
        (LineIndex.exists_lineText?_iff.mp ⟨line, hline⟩).2
    | none =>
      -- without content lines the block ends on its first line, or above it
      obtain ⟨opening, hopening⟩ := CodeLines.exists_opening h.body_eq
      have hstart := (LineIndex.exists_lineText?_iff.mp ⟨opening, hopening⟩).2
      have hcount : body.count = n.range.stop.line - n.range.start.line := by rw [hbody]
      rw [List.getLast?_eq_none_iff.mp hlast, List.length_nil] at hlength
      simp only [CodeLines.stop, hclosing, hlast]
      omega

/-- A place on a content line comes from the same line of the document, behind the prefix that was
taken off it. -/
theorem hostPosition?_content (h : MadeOf x n ds id b tag body content)
    (hx : x.byteLength < signedLimit) {k m : Nat} {line : List Char}
    (hk : content[k]? = some (m, line)) {c : Nat} (hc : 1 ≤ c)
    (hlen : c ≤ (dropIndent (containerIndent x n) line).2.length + 1) (o : Option Nat) :
    b.map.hostPosition? ⟨directiveHeight ds + 1 + k, c, o⟩ =
      some ⟨m, (dropIndent (containerIndent x n) line).1 + c, none⟩ := by
  obtain ⟨hm, hline⟩ := h.getElem?_content hk
  have hbound := length_lineText_lt hx (by have := h.one_le_start; omega) hline
  have hword := word_eq_of_le_lineCount hx (LineIndex.exists_lineText?_iff.mp ⟨line, hline⟩).2
  have htotal := length_dropIndent (containerIndent x n) line
  rw [FragmentMap.hostPosition?, h.map_eq]
  refine h.ascending.hostPosition?_eq_some_iff.mpr
    ⟨contentStretch (containerIndent x n) (directiveHeight ds + 1 + k) m line, ?_, ?_, ?_⟩
  · have hmem : contentStretch (containerIndent x n) (directiveHeight ds + 1 + k) m line ∈
        contentStretches (containerIndent x n) (directiveHeight ds + 1) content := by
      apply List.mem_of_getElem? (i := k)
      rw [getElem?_contentStretches, hk]
      rfl
    simp [sourceStretches, hmem]
  · constructor
    · simpa [contentStretch, Position.le_def] using hc
    · simpa [contentStretch, Position.le_def] using hlen
  · have hshift : (shiftColumn ((dropIndent (containerIndent x n) line).1 + 1) c 1 : Int) = _ :=
      shiftColumn_eq (by omega) (by omega)
    simp only [Stretch.place, contentStretch, Nat.sub_self, Nat.add_zero, hword,
      Position.mk.injEq, true_and, and_true]
    omega

/-- The place at the end of a source comes from the position chosen for it. -/
theorem hostPosition?_end (h : MadeOf x n ds id b tag body content)
    (hx : x.byteLength < signedLimit) (hpos : 0 < directiveHeight ds + body.count)
    (o : Option Nat) :
    b.map.hostPosition? ⟨directiveHeight ds + body.count + 1, 1, o⟩ =
      some ⟨(body.stop x n (containerIndent x n) content).line,
        shiftColumn (body.stop x n (containerIndent x n) content).column 1 1, none⟩ := by
  have hlines : (sourceLines ds (containerIndent x n) content).isEmpty = false := by
    rw [List.isEmpty_eq_false_iff, ← List.length_pos_iff, sourceLines, List.length_append,
      List.length_map, h.length_content]
    exact hpos
  have hline : directiveHeight ds + 1 + content.length = directiveHeight ds + body.count + 1 := by
    rw [h.length_content]
    omega
  rw [FragmentMap.hostPosition?, h.map_eq]
  refine h.ascending.hostPosition?_eq_some_iff.mpr
    ⟨closingStretch (directiveHeight ds + body.count + 1)
      (body.stop x n (containerIndent x n) content), ?_, ?_, ?_⟩
  · simp [sourceStretches, hlines, hline]
  · exact ⟨Position.le_refl _, Position.le_refl _⟩
  · simp [Stretch.place, closingStretch, Range.point, word_eq_of_le_lineCount hx h.stop_line_le]

/-- Below the directives, only the places on content lines and the end of the source come from
somewhere. -/
theorem hostPosition?_eq_none (h : MadeOf x n ds id b tag body content) {q : Position}
    (hq : directiveHeight ds < q.line)
    (hcontent : ∀ k m line, content[k]? = some (m, line) → q.line = directiveHeight ds + 1 + k →
      1 ≤ q.column → ¬q.column ≤ (dropIndent (containerIndent x n) line).2.length + 1)
    (hend : 0 < directiveHeight ds + body.count → q.line = directiveHeight ds + body.count + 1 →
      q.column ≠ 1) : b.map.hostPosition? q = none := by
  rw [FragmentMap.hostPosition?, h.map_eq]
  refine h.ascending.hostPosition?_eq_none_iff.mpr ?_
  rintro s hs ⟨hstart, hstop⟩
  rw [Position.le_def] at hstart hstop
  rcases mem_sourceStretches hs with hs | ⟨k, m, line, hget, rfl⟩ | ⟨hne, rfl⟩
  · have hline := stop_line_of_mem_directiveStretches hs
    omega
  · simp only [contentStretch] at hstart hstop
    exact hcontent k m line hget (by omega) (by omega) (by omega)
  · simp only [closingStretch, Range.point, h.length_content] at hstart hstop
    refine hend ?_ (by omega) (by omega)
    rw [← h.length_content, ← List.length_map (f := fun l ↦
      (dropIndent (containerIndent x n) l.2).2), directiveHeight, ← List.length_append]
    exact List.length_pos_iff.mpr hne

/-- No line of a source holds a line feed. -/
theorem not_mem_of_mem_sourceLines (h : MadeOf x n ds id b tag body content) :
    ∀ l ∈ sourceLines ds (containerIndent x n) content, '\n' ∉ l := by
  intro l hl
  rcases List.mem_append.mp hl with hl | hl
  · obtain ⟨d, -, hl⟩ := List.mem_flatMap.mp hl
    exact Text.not_mem_of_mem_splitFeeds hl
  · obtain ⟨⟨m, line⟩, hmem, rfl⟩ := List.mem_map.mp hl
    obtain ⟨k, hk⟩ := List.getElem?_of_mem hmem
    have hline := (h.getElem?_content hk).2
    exact fun hfeed ↦ LineIndex.not_mem_of_lineText? hline (List.mem_of_mem_drop hfeed)

/-- Behind the comments of the directives each line of the source is a content line without its
indent. -/
theorem getElem?_sourceLines (ds : List Directive) (indent : Nat) {k m : Nat} {line : List Char}
    (hk : content[k]? = some (m, line)) :
    (sourceLines ds indent content)[directiveHeight ds + k]? = some (dropIndent indent line).2 := by
  rw [sourceLines, directiveHeight, List.getElem?_append_right (Nat.le_add_right _ _),
    Nat.add_sub_cancel_left, List.getElem?_map, hk]
  rfl

/-- The lines of the generated text are those that a source is made of, each with a line feed. -/
theorem line?_of_sourceLines (h : MadeOf x n ds id b tag body content) {j : Nat} {l : List Char}
    (hl : (sourceLines ds (containerIndent x n) content)[j]? = some l) :
    ∃ g, b.map.generated.line? (j + 1) = some g ∧ g.raw = l ++ ['\n'] := by
  have har := LineIndex.around_joinLines h.not_mem_of_mem_sourceLines hl
  rw [h.map_eq]
  exact ⟨_, har.line?_eq, rfl⟩

/-- The line of a source that a content line becomes. -/
theorem line?_generated (h : MadeOf x n ds id b tag body content) {k m : Nat} {line : List Char}
    (hk : content[k]? = some (m, line)) :
    ∃ l, b.map.generated.line? (directiveHeight ds + 1 + k) = some l ∧
      l.raw = (dropIndent (containerIndent x n) line).2 ++ ['\n'] := by
  rw [Nat.add_right_comm]
  exact h.line?_of_sourceLines (getElem?_sourceLines ds (containerIndent x n) hk)

/-- As the source has it, such a line ends in a line feed. -/
theorem raw_generated (h : MadeOf x n ds id b tag body content) {k m : Nat} {line : List Char}
    (hk : content[k]? = some (m, line)) {g : Line}
    (hg : b.map.generated.line? (directiveHeight ds + 1 + k) = some g) :
    g.raw = (dropIndent (containerIndent x n) line).2 ++ ['\n'] := by
  obtain ⟨l, hl, hraw⟩ := h.line?_generated hk
  rw [Option.some.inj (hg.symm.trans hl), hraw]

end SourceBlock.MadeOf

namespace SourceBlock

/-- Line number `g` of a source holds `text`, which is line number `m` of the document without its
first `stripped` characters, and the map leads from its places to where their characters are in the
document. The place just after the text counts as one of the line. -/
structure CopiesLine (b : SourceBlock) (x : LineIndex) (indent g m : Nat) (line : List Char)
    (stripped : Nat) (text : List Char) : Prop where
  line_eq : x.lineText? m = some line
  stripped_eq : stripped = (dropIndent indent line).1
  text_eq : text = line.drop stripped
  stripped_le : stripped ≤ indent ∧ stripped ≤ line.length
  blank : ∀ c ∈ line.take stripped, c = '>' ∨ Text.isBlank c = true
  hostPosition?_eq : ∀ c o, 1 ≤ c → c ≤ text.length + 1 →
    b.map.hostPosition? ⟨g, c, o⟩ = some ⟨m, stripped + c, none⟩
  charAt?_eq : ∀ c o, 1 ≤ c → c ≤ text.length →
    ∃ a, b.map.generated.charAt? ⟨g, c, o⟩ = some a ∧ x.charAt? ⟨m, stripped + c, none⟩ = some a

/-- A source corresponds to its fragment: `body` says which lines of the document are its content,
and `texts` are the lines of the source below its directives. -/
structure Corresponds (b : SourceBlock) (x : LineIndex) (n : Node) (ds : List Directive)
    (body : CodeLines) (texts : List (List Char)) : Prop where
  /-- The content are the lines after the first one, less a last one read as the closing fence. -/
  body_eq : (n.ClosedByLastLine x (containerIndent x n) ∧
      body.closing = some n.range.stop.line ∧
        body.count + 1 = n.range.stop.line - n.range.start.line) ∨
    (¬n.ClosedByLastLine x (containerIndent x n) ∧ body.closing = none ∧
      body.count = n.range.stop.line - n.range.start.line)
  length_texts : texts.length = body.count
  text_eq : b.source.text = Text.joinLines (ds.flatMap Directive.commentLines ++ texts)
  copies : ∀ k text, texts[k]? = some text → ∃ line stripped,
    b.CopiesLine x (containerIndent x n) (directiveHeight ds + 1 + k)
      (n.range.start.line + 1 + k) line stripped text
  /-- Apart from those of content lines and from the end, no place below the directives comes from
  the document. -/
  unmapped : ∀ q : Position, directiveHeight ds < q.line →
    (∀ k text, texts[k]? = some text → ¬(q.line = directiveHeight ds + 1 + k ∧ 1 ≤ q.column ∧
      q.column ≤ text.length + 1)) →
    ¬(0 < directiveHeight ds + body.count ∧ q.line = directiveHeight ds + body.count + 1 ∧
      q.column = 1) → b.map.hostPosition? q = none
  /-- The end comes from the closing fence, behind its container prefix. -/
  stop_closed : ∀ m, body.closing = some m → 0 < directiveHeight ds + body.count →
    ∃ line, x.lineText? m = some line ∧
      ∀ o, b.map.hostPosition? ⟨directiveHeight ds + body.count + 1, 1, o⟩ =
        some ⟨m, (dropIndent (containerIndent x n) line).1 + 1, none⟩
  /-- Without a closing fence it comes from the end of the last content line. -/
  stop_open : body.closing = none → 0 < body.count →
    ∃ line, x.lineText? (n.range.start.line + body.count) = some line ∧
      ∀ o, b.map.hostPosition? ⟨directiveHeight ds + body.count + 1, 1, o⟩ =
        some ⟨n.range.start.line + body.count, line.length + 1, none⟩
  /-- Without content either it comes from the end of the block. -/
  stop_empty : body.closing = none → body.count = 0 → 0 < directiveHeight ds →
    ∀ o, b.map.hostPosition? ⟨directiveHeight ds + 1, 1, o⟩ =
      some ⟨n.range.stop.line, (max 1 (signedWord n.range.stop.column)).toNat, none⟩

end SourceBlock

namespace SourceBlock.MadeOf

variable {x : LineIndex} {n : Node} {ds : List Directive} {id : FragmentId} {b : SourceBlock}
  {tag : List Char} {body : CodeLines} {content : List (Nat × List Char)}

/-- Each content line is copied. -/
theorem copiesLine (h : MadeOf x n ds id b tag body content) (hx : x.byteLength < signedLimit)
    {k m : Nat} {line : List Char} (hk : content[k]? = some (m, line)) :
    b.CopiesLine x (containerIndent x n) (directiveHeight ds + 1 + k) (n.range.start.line + 1 + k)
      line (dropIndent (containerIndent x n) line).1
      (dropIndent (containerIndent x n) line).2 := by
  obtain ⟨rfl, hline⟩ := h.getElem?_content hk
  have htotal := length_dropIndent (containerIndent x n) line
  refine ⟨hline, rfl, rfl, ⟨Nat.min_le_left _ _, by omega⟩, ?_, ?_, ?_⟩
  · intro c hc
    have hmember := isMember_of_mem_take_dropIndent hc
    simpa [ContainerPrefix.isMember, ContainerPrefix.marker] using hmember
  · intro c o hc hlen
    exact h.hostPosition?_content hx hk hc hlen o
  · intro c o hc hlen
    obtain ⟨i, rfl⟩ := Nat.exists_eq_add_of_le' hc
    obtain ⟨g, hg, hgraw⟩ := h.line?_generated hk
    obtain ⟨l, hl, rfl⟩ := Option.map_eq_some_iff.mp hline
    obtain ⟨terminator, hraw⟩ := LineIndex.exists_raw_eq hl
    have hi : i < (dropIndent (containerIndent x n) l.text).2.length := by omega
    refine ⟨(dropIndent (containerIndent x n) l.text).2[i], ?_, ?_⟩
    · rw [LineIndex.charAt?_succ hg, hgraw, List.getElem?_append_left hi,
        List.getElem?_eq_getElem hi]
    · rw [← Nat.add_assoc, LineIndex.charAt?_succ hl, hraw,
        List.getElem?_append_left (by omega), ← List.getElem?_drop,
        List.getElem?_eq_getElem (by exact hi)]
      rfl

/-- A column of a line stays as it is on its way from the end of a source. -/
theorem shiftColumn_stop {c : Nat} (hc : 1 ≤ c) (hbound : c < signedLimit) :
    shiftColumn c 1 1 = c := by
  have hshift : (shiftColumn c 1 1 : Int) = _ := shiftColumn_eq (by omega) (by omega)
  omega

/-- With a closing fence the end of a source comes from behind that line's container prefix. -/
theorem hostPosition?_end_closed (h : MadeOf x n ds id b tag body content)
    (hx : x.byteLength < signedLimit) {m : Nat} (hclosing : body.closing = some m)
    (hpos : 0 < directiveHeight ds + body.count) : ∃ line, x.lineText? m = some line ∧
      ∀ o, b.map.hostPosition? ⟨directiveHeight ds + body.count + 1, 1, o⟩ =
        some ⟨m, (dropIndent (containerIndent x n) line).1 + 1, none⟩ := by
  rcases CodeLines.ofNode_eq_ok h.body_eq with ⟨hclosed, hbody⟩ | ⟨-, hbody⟩
  · obtain ⟨hlt, -, line, -, -, hline, -, -⟩ := hclosed
    obtain rfl : n.range.stop.line = m := by simpa [hbody] using hclosing
    have hbound := length_lineText_lt hx (by have := h.one_le_start; omega) hline
    have htotal := length_dropIndent (containerIndent x n) line
    refine ⟨line, hline, fun o ↦ ?_⟩
    rw [h.hostPosition?_end hx hpos]
    simp only [CodeLines.stop, hclosing, hline, Option.getD_some]
    rw [shiftColumn_stop (by omega) (by omega)]
  · rw [hbody] at hclosing
    cases hclosing

/-- Without a closing fence the end of a source comes from the end of its last content line. -/
theorem hostPosition?_end_open (h : MadeOf x n ds id b tag body content)
    (hx : x.byteLength < signedLimit) (hclosing : body.closing = none) (hpos : 0 < body.count) :
    ∃ line, x.lineText? (n.range.start.line + body.count) = some line ∧
      ∀ o, b.map.hostPosition? ⟨directiveHeight ds + body.count + 1, 1, o⟩ =
        some ⟨n.range.start.line + body.count, line.length + 1, none⟩ := by
  have hlen := h.length_content
  obtain ⟨line, hlast, hline⟩ := h.exists_getElem?_content (k := body.count - 1) (by omega)
  rw [show n.range.start.line + 1 + (body.count - 1) = n.range.start.line + body.count by omega]
    at hlast hline
  have hgetLast : content.getLast? = some (n.range.start.line + body.count, line) := by
    rw [List.getLast?_eq_getElem?, hlen, hlast]
  have hbound := length_lineText_lt hx (by have := h.one_le_start; omega) hline
  have htotal := length_dropIndent (containerIndent x n) line
  refine ⟨line, hline, fun o ↦ ?_⟩
  rw [h.hostPosition?_end hx (by omega)]
  simp only [CodeLines.stop, hclosing, hgetLast]
  rw [shiftColumn_stop (by omega) (by omega), htotal]

end SourceBlock.MadeOf

/-- The source of a fragment corresponds to the fragment, line by line and place by place. -/
theorem SourceBlock.ofNode_corresponds {x : LineIndex} (hx : x.byteLength < signedLimit) {n : Node}
    {ds : List Directive} {id : FragmentId} {b : SourceBlock}
    (hb : SourceBlock.ofNode x n ds id = .ok b) :
    ∃ body texts, CodeLines.ofNode x n (containerIndent x n) = .ok body ∧
      b.Corresponds x n ds body texts := by
  obtain ⟨tag, body, content, h⟩ := SourceBlock.ofNode_eq_ok_iff.mp hb
  have hlen := h.length_content
  refine ⟨body, content.map fun l ↦ (dropIndent (containerIndent x n) l.2).2, h.body_eq,
    ?_, by rw [List.length_map, hlen], ?_, ?_, ?_, fun m ↦ h.hostPosition?_end_closed hx,
    h.hostPosition?_end_open hx, ?_⟩
  · rcases CodeLines.ofNode_eq_ok h.body_eq with ⟨hclosed, rfl⟩ | ⟨hopen, rfl⟩
    · have hlt := hclosed.1
      exact .inl ⟨hclosed, rfl, by simp only; omega⟩
    · exact .inr ⟨hopen, rfl, rfl⟩
  · rw [h.source_eq, sourceLines]
  · intro k text hk
    rw [List.getElem?_map] at hk
    obtain ⟨⟨m, line⟩, hget, rfl⟩ := Option.map_eq_some_iff.mp hk
    exact ⟨line, _, h.copiesLine hx hget⟩
  · intro q hq hcontent hend
    refine h.hostPosition?_eq_none hq ?_ fun hpos hline hcolumn ↦ hend ⟨hpos, hline, hcolumn⟩
    intro k m line hk hline hcolumn hle
    refine hcontent k _ ?_ ⟨hline, hcolumn, hle⟩
    rw [List.getElem?_map, hk]
    rfl
  · intro hclosing hcount hpos o
    have hnil : content = [] := List.length_eq_zero_iff.mp (by omega)
    have hend := h.hostPosition?_end hx (by omega) o
    rw [hcount, Nat.add_zero] at hend
    rw [hend, hnil]
    simp [CodeLines.stop, hclosing, shiftColumn]

/-- A document with a quoted code block that a directive of two lines applies to. -/
def quotedDocument : LineIndex :=
  .ofText "<!-- eslint\na: 0 -->\n\n> ```js\n>   b\n> c\n> ```\n".toList

/-- The code block of `quotedDocument`. -/
def quotedBlock : Node :=
  { kind := .code, range := ⟨⟨4, 3, none⟩, ⟨7, 6, none⟩⟩, lang := some "js".toList }

/-- The directive of `quotedDocument`. -/
def quotedDirective : Directive :=
  ⟨"eslint\na: 0".toList, ⟨⟨1, 1, none⟩, ⟨2, 9, none⟩⟩⟩

/-- A quoted block with a directive corresponds to its document so. -/
theorem SourceBlock.quotedBlock_corresponds : ∃ b body texts,
    SourceBlock.ofNode quotedDocument quotedBlock [quotedDirective] ⟨"doc.md", 0⟩ = .ok b ∧
      b.Corresponds quotedDocument quotedBlock [quotedDirective] body texts := by
  have hx : quotedDocument.byteLength < signedLimit := by decide +kernel
  obtain ⟨b, hb, -⟩ : ∃ b, SourceBlock.ofNode quotedDocument quotedBlock [quotedDirective]
      ⟨"doc.md", 0⟩ = .ok b ∧ true = true := exists_of_any_toOption (by decide +kernel)
  obtain ⟨body, texts, -, h⟩ := ofNode_corresponds hx hb
  exact ⟨b, body, texts, hb, h⟩

end FencedCode
