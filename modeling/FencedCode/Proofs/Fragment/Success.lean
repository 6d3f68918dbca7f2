import FencedCode.Document
import FencedCode.Proofs.Fragment.Source
import FencedCode.Proofs.LineIndex.Offsets
import FencedCode.Proofs.Node.Trees

/-!
# When a fragment has a source

A tagged code block whose lines are lines of the document has a source unless one of its directives
collapses: its text goes on one line of the source, and its comment ends to the left of where it
starts. Such a directive would end before it starts, and no map holds it.
-/

namespace FencedCode

/-- Whether the text of a directive takes one line of a source and would end there to the left of
where it starts, behind the opener of its comment. So it is when the comment of the document, on one
line or several, ends at a column to the left of that of its start. The columns are words, and the
sum is read in two's complement. -/
def Directive.collapses (d : Directive) : Bool :=
  let column := commentOpening.length + 1
  (d.location.height == 0 || !d.text.contains '\n') &&
    signedWord ((column : Int) + d.location.stop.column - d.location.start.column) < column

namespace Directive

/-- The comment for a directive has as many line feeds as its text. -/
theorem length_commentLines (d : Directive) : d.commentLines.length = d.text.count '\n' + 1 := by
  rw [commentLines, Text.length_splitFeeds]
  simp [commentOpening, commentClosing]

/-- Either the comment or the text of a directive that collapses is on one line. -/
theorem collapses_iff (d : Directive) : d.collapses = true ↔
    min d.location.height (d.text.count '\n') = 0 ∧
      signedWord ((3 : Int) + d.location.stop.column - d.location.start.column) < 3 := by
  have hopening : ((commentOpening.length + 1 : Nat) : Int) = 3 := rfl
  have hfeed : d.text.contains '\n' = true ↔ d.text.count '\n' ≠ 0 := by
    rw [List.contains_iff_mem, ← List.count_pos_iff, Nat.pos_iff_ne_zero]
  simp only [collapses, hopening, Bool.and_eq_true, Bool.or_eq_true, beq_iff_eq,
    Bool.not_eq_true', decide_eq_true_eq]
  rw [← Bool.not_eq_true, hfeed]
  omega

/-- The text of a directive would end before it starts in a source exactly when it collapses. -/
theorem stop_lt_start_generatedRange_iff (d : Directive) (first : Nat) :
    (d.generatedRange first d.commentLines.length).stop <
        (d.generatedRange first d.commentLines.length).start ↔ d.collapses = true := by
  have hcolumn := natCast_shiftColumn (commentOpening.length + 1) d.location.stop.column
    d.location.start.column
  have hopening : ((commentOpening.length + 1 : Nat) : Int) = 3 := rfl
  rw [hopening] at hcolumn
  simp only [generatedRange, Position.lt_def, collapses_iff, length_commentLines]
  omega

/-- Of directives none collapses, or there is a first one that does. -/
private theorem collapses_cases (ds : List Directive) : (∀ d ∈ ds, d.collapses = false) ∨
    ∃ before d after, ds = before ++ d :: after ∧ (∀ e ∈ before, e.collapses = false) ∧
      d.collapses = true := by
  cases hfind : ds.find? Directive.collapses with
  | none => exact .inl (by simpa using hfind)
  | some d =>
    obtain ⟨hd, before, after, hsplit, hbefore⟩ := List.find?_eq_some_iff_append.mp hfind
    exact .inr ⟨before, d, after, hsplit, by simpa using hbefore, hd⟩

end Directive

namespace Draft

/-- A directive is accepted unless it collapses. -/
private theorem Maps.exists_addDirective {d : Draft} {ss : List Stretch} (h : d.Maps ss)
    {directive : Directive} (hd : directive.collapses = false) :
    ∃ d', d.addDirective directive = .ok d' := by
  have hle : (directive.stretch d.nextLine).generated.start ≤
      (directive.stretch d.nextLine).generated.stop := by
    rw [← Position.not_lt]
    exact fun hlt ↦ Bool.eq_false_iff.mp hd
      ((directive.stop_lt_start_generatedRange_iff d.nextLine).mp hlt)
  exact ⟨_, bind_eq_ok_iff.mpr ⟨_, h.add_eq_ok rfl hle, rfl⟩⟩

/-- One that collapses is refused for ending before it starts. -/
private theorem addDirective_eq_error (d : Draft) {directive : Directive}
    (hd : directive.collapses = true) :
    d.addDirective directive = .error (.invertedRange
      (directive.stretch d.nextLine).generated.start
      (directive.stretch d.nextLine).generated.stop) := by
  have hadd : d.map.add directive.location (directive.stretch d.nextLine).generated =
      .error (.invertedRange (directive.stretch d.nextLine).generated.start
        (directive.stretch d.nextLine).generated.stop) :=
    if_pos ((directive.stop_lt_start_generatedRange_iff d.nextLine).mpr hd)
  rw [Draft.addDirective]
  exact congrArg (· >>= _) hadd

/-- Directives none of which collapses are all accepted. -/
private theorem Maps.exists_addDirectives {d : Draft} {ss : List Stretch} (h : d.Maps ss)
    {directives : List Directive} (hall : ∀ e ∈ directives, e.collapses = false) :
    ∃ d', directives.foldlM Draft.addDirective d = .ok d' := by
  induction directives generalizing d ss with
  | nil => exact ⟨d, rfl⟩
  | cons e directives ih =>
    obtain ⟨he, hrest⟩ := List.forall_mem_cons.mp hall
    obtain ⟨d₁, hadd⟩ := h.exists_addDirective he
    obtain ⟨d', hd'⟩ := ih (h.addDirective hadd).2 hrest
    exact ⟨d', by rw [List.foldlM_cons, hadd, ok_bind, hd']⟩

/-- The first of several directives that collapses is refused, where it comes after the comments for
those before it. -/
private theorem Maps.addDirectives_eq_error {d : Draft} {ss : List Stretch} (h : d.Maps ss)
    {before : List Directive} (hbefore : ∀ e ∈ before, e.collapses = false) {e : Directive}
    (he : e.collapses = true) (after : List Directive) :
    (before ++ e :: after).foldlM Draft.addDirective d = .error (.invertedRange
      (e.stretch (d.nextLine + directiveHeight before)).generated.start
      (e.stretch (d.nextLine + directiveHeight before)).generated.stop) := by
  obtain ⟨d₁, hd₁⟩ := h.exists_addDirectives hbefore
  have hline : d₁.nextLine = d.nextLine + directiveHeight before := by
    rw [nextLine, nextLine, (h.addDirectives hd₁).1, List.length_append, directiveHeight]
    omega
  rw [List.foldlM_append, hd₁, ok_bind, List.foldlM_cons, d₁.addDirective_eq_error he, error_bind,
    hline]

end Draft

private theorem fragmentLine_exists_iff {x : LineIndex} {n : Nat} :
    (∃ line, fragmentLine x n = .ok line) ↔ 1 ≤ n ∧ n ≤ x.lineCount := by
  simp only [fragmentLine_eq_ok_iff, LineIndex.exists_lineText?_iff]

/-- Lines up to the end of the document can be read. -/
private theorem exists_fragmentLines {x : LineIndex} {n count : Nat} (hn : 1 ≤ n)
    (hcount : n + count ≤ x.lineCount + 1) : ∃ lines, fragmentLines x n count = .ok lines := by
  induction count generalizing n with
  | zero => exact ⟨[], rfl⟩
  | succ count ih =>
    obtain ⟨line, hline⟩ := fragmentLine_exists_iff.mpr
      (show 1 ≤ n ∧ n ≤ x.lineCount by omega)
    obtain ⟨rest, hrest⟩ := ih (n := n + 1) (by omega) (by omega)
    exact ⟨(n, line) :: rest, by rw [fragmentLines, hline, ok_bind, hrest, ok_bind, pure_eq_ok]⟩

/-- A line that the document lacks is an error. -/
private theorem fragmentLine_eq_error {x : LineIndex} {n : Nat} (h : ¬(1 ≤ n ∧ n ≤ x.lineCount)) :
    fragmentLine x n = .error (.lineOutOfBounds n x.lineCount) := by
  cases hline : x.lineText? n with
  | none => rw [fragmentLine, hline]
  | some line => exact absurd (LineIndex.exists_lineText?_iff.mp ⟨line, hline⟩) h

/-- Reading on below the end of the document stops at the first line that is missing. -/
private theorem fragmentLines_eq_error {x : LineIndex} {n count : Nat} (hn : 1 ≤ n)
    (hle : n ≤ x.lineCount + 1) (hcount : x.lineCount + 1 < n + count) :
    fragmentLines x n count = .error (.lineOutOfBounds (x.lineCount + 1) x.lineCount) := by
  induction count generalizing n with
  | zero => omega
  | succ count ih =>
    rw [fragmentLines]
    by_cases hlast : n = x.lineCount + 1
    · rw [hlast, fragmentLine_eq_error (by omega), error_bind]
    · obtain ⟨line, hline⟩ := fragmentLine_exists_iff.mpr
        (show 1 ≤ n ∧ n ≤ x.lineCount by omega)
      rw [hline, ok_bind, ih (by omega) (by omega) (by omega), error_bind]

/-- Whether the first and the last line of a node are lines of the document. -/
structure Node.LiesIn (n : Node) (x : LineIndex) : Prop where
  one_le_start : 1 ≤ n.range.start.line
  start_le : n.range.start.line ≤ x.lineCount
  one_le_stop : 1 ≤ n.range.stop.line
  stop_le : n.range.stop.line ≤ x.lineCount

/-- A node that has the place of a construct stands on lines of the document. -/
theorem NodeKind.liesIn_of_place {x : LineIndex} {n : Node} {k : NodeKind} {s : Markdown.Span}
    (h : n.range = k.place x s) : n.LiesIn x := by
  obtain ⟨hstart, hstartLe⟩ := x.position_line_mem (k.span x.text s).start
  obtain ⟨hstop, hstopLe⟩ := x.position_line_mem (k.span x.text s).stop
  rw [NodeKind.place] at h
  constructor
  all_goals rwa [h]

/-- And so do the nodes of a document, whatever events it was made of. -/
theorem Document.liesIn_of_mem_preorder {text : List Char} {events : List Markdown.Event} {n : Node}
    (h : n ∈ (ofEvents text events).root.preorder) : n.LiesIn (LineIndex.ofText text) := by
  obtain ⟨s, hs⟩ := Node.exists_place_of_mem_ofEvents h
  exact NodeKind.liesIn_of_place hs

/-- Whether a node has lines that the document lacks: it starts on none, or starts or ends below the
last one. -/
def Node.LeavesText (n : Node) (x : LineIndex) : Prop :=
  n.range.start.line = 0 ∨ x.lineCount < max n.range.start.line n.range.stop.line

/-- The line of a code block that is found missing: the first one, or else the last one when that is
read for a closing fence, or the first one below the document. -/
def Node.missingLine (x : LineIndex) (n : Node) (indent : Nat) : Nat :=
  if n.range.start.line = 0 ∨ x.lineCount < n.range.start.line then n.range.start.line
  else if (Fence.opening?
      (dropIndent indent ((x.lineText? n.range.start.line).getD [])).2).isSome then n.range.stop.line
  else x.lineCount + 1

private theorem Node.LiesIn.not_leavesText {n : Node} {x : LineIndex} (h : n.LiesIn x) :
    ¬n.LeavesText x := by
  have hone := h.one_le_start
  have hstart := h.start_le
  have hstop := h.stop_le
  rw [LeavesText]
  omega

/-- A code block whose lines are lines of the document has content lines. -/
theorem Node.exists_codeLines {n : Node} {x : LineIndex} (h : ¬n.LeavesText x) (indent : Nat) :
    ∃ body, CodeLines.ofNode x n indent = .ok body := by
  rw [LeavesText] at h
  obtain ⟨opening, hopening⟩ := fragmentLine_exists_iff.mpr
    (show 1 ≤ n.range.start.line ∧ n.range.start.line ≤ x.lineCount by omega)
  rw [CodeLines.ofNode, hopening, ok_bind]
  split
  · exact ⟨_, rfl⟩
  · split
    · exact ⟨_, rfl⟩
    · obtain ⟨last, hlast⟩ := fragmentLine_exists_iff.mpr
        (show 1 ≤ n.range.stop.line ∧ n.range.stop.line ≤ x.lineCount by omega)
      rw [hlast, ok_bind]
      split
      · exact ⟨_, rfl⟩
      · exact ⟨_, rfl⟩

/-- And they can be read. -/
theorem Node.exists_content {n : Node} {x : LineIndex} (h : ¬n.LeavesText x) {indent : Nat}
    {body : CodeLines} (hbody : CodeLines.ofNode x n indent = .ok body) :
    ∃ content, fragmentLines x body.first body.count = .ok content := by
  rw [LeavesText] at h
  rcases CodeLines.ofNode_eq_ok hbody with ⟨-, rfl⟩ | ⟨-, rfl⟩
  · exact exists_fragmentLines (by simp only; omega) (by simp only; omega)
  · exact exists_fragmentLines (by simp only; omega) (by simp only; omega)

/-- A node that lies in the document has its code lines found. -/
theorem Node.LiesIn.exists_codeLines {n : Node} {x : LineIndex} (h : n.LiesIn x) (indent : Nat) :
    ∃ body, CodeLines.ofNode x n indent = .ok body :=
  Node.exists_codeLines h.not_leavesText indent

/-- And the content that they tell can be read. -/
theorem Node.LiesIn.exists_content {n : Node} {x : LineIndex} (h : n.LiesIn x) {indent : Nat}
    {body : CodeLines} (hbody : CodeLines.ofNode x n indent = .ok body) :
    ∃ content, fragmentLines x body.first body.count = .ok content :=
  Node.exists_content h.not_leavesText hbody

/-- The lines of any other code block end in an error, which names the line that is missing. -/
theorem Node.content_eq_error {n : Node} {x : LineIndex} (h : n.LeavesText x) (indent : Nat) :
    (CodeLines.ofNode x n indent >>= fun body ↦ fragmentLines x body.first body.count) =
      .error (.lineOutOfBounds (n.missingLine x indent) x.lineCount) := by
  rw [LeavesText] at h
  by_cases hstart : n.range.start.line = 0 ∨ x.lineCount < n.range.start.line
  · rw [missingLine, if_pos hstart, CodeLines.ofNode, fragmentLine_eq_error (by omega), error_bind,
      error_bind]
  · rw [missingLine, if_neg hstart]
    obtain ⟨opening, hopening⟩ := fragmentLine_exists_iff.mpr
      (show 1 ≤ n.range.start.line ∧ n.range.start.line ≤ x.lineCount by omega)
    have hline := fragmentLine_eq_ok_iff.mp hopening
    have hlt : ¬n.range.stop.line ≤ n.range.start.line := by omega
    rw [CodeLines.ofNode, hopening, ok_bind, if_neg hlt, hline, Option.getD_some]
    -- a last line below the document is missed at once when the first one opens a fence
    cases Fence.opening? (dropIndent indent opening).2 with
    | none =>
      dsimp only
      rw [pure_eq_ok, ok_bind]
      exact fragmentLines_eq_error (by dsimp only; omega) (by dsimp only; omega)
        (by dsimp only; omega)
    | some fence =>
      dsimp only
      rw [fragmentLine_eq_error (by omega), error_bind, error_bind]
      rfl

namespace SourceBlock

variable {x : LineIndex} {n : Node} {ds : List Directive}

/-- Without a language there is no source. -/
theorem ofNode_of_languageTag?_eq_none (htag : n.languageTag? = none) (id : FragmentId) :
    SourceBlock.ofNode x n ds id = .error .missingLanguage := by
  rw [ofNode, htag]

/-- The first directive that collapses keeps a tagged code block from having a source. -/
theorem ofNode_of_collapses {before after : List Directive} {d : Directive}
    (htag : n.languageTag? ≠ none) (hbefore : ∀ e ∈ before, e.collapses = false)
    (hd : d.collapses = true) (id : FragmentId) :
    SourceBlock.ofNode x n (before ++ d :: after) id = .error (.map (.invertedRange
      (d.stretch (1 + directiveHeight before)).generated.start
      (d.stretch (1 + directiveHeight before)).generated.stop)) := by
  obtain ⟨tag, htag⟩ := Option.ne_none_iff_exists'.mp htag
  simp only [ofNode, htag, Draft.maps_empty.addDirectives_eq_error hbefore hd, mapError_error,
    error_bind]
  rfl

/-- Else a line that the document lacks does. -/
theorem ofNode_of_leavesText (htag : n.languageTag? ≠ none) (hds : ∀ d ∈ ds, d.collapses = false)
    (hout : n.LeavesText x) (id : FragmentId) : SourceBlock.ofNode x n ds id =
      .error (.lineOutOfBounds (n.missingLine x (containerIndent x n)) x.lineCount) := by
  obtain ⟨tag, htag⟩ := Option.ne_none_iff_exists'.mp htag
  obtain ⟨comments, hcomments⟩ := Draft.maps_empty.exists_addDirectives hds
  simp only [ofNode, htag, hcomments, mapError_ok, ok_bind]
  exact bind_bind_eq_error (Node.content_eq_error hout _)

/-- Nothing else does. -/
theorem exists_ofNode (htag : n.languageTag? ≠ none) (hds : ∀ d ∈ ds, d.collapses = false)
    (hin : ¬n.LeavesText x) (id : FragmentId) :
    ∃ b, SourceBlock.ofNode x n ds id = .ok b ∧ b.source.id = id := by
  obtain ⟨tag, htag⟩ := Option.ne_none_iff_exists'.mp htag
  obtain ⟨comments, hcomments⟩ := Draft.maps_empty.exists_addDirectives hds
  obtain ⟨body, hbody⟩ := Node.exists_codeLines hin (containerIndent x n)
  obtain ⟨content, hcontent⟩ := Node.exists_content hin hbody
  obtain ⟨b, hb, hmade⟩ := exists_madeOf id htag hcomments hbody hcontent
  exact ⟨b, hb, by rw [hmade.source_eq]⟩

/-- A tagged code block in the document has a source, or one of its directives collapses and is
refused. -/
theorem ofNode_cases (h : n.LiesIn x) {tag : List Char} (htag : n.languageTag? = some tag)
    (ds : List Directive) (id : FragmentId) :
    ((∀ d ∈ ds, d.collapses = false) ∧
        ∃ b, SourceBlock.ofNode x n ds id = .ok b ∧ b.source.id = id) ∨
      ((∃ d ∈ ds, d.collapses = true) ∧ ∃ start stop,
        SourceBlock.ofNode x n ds id = .error (.map (.invertedRange start stop))) := by
  have hsome : n.languageTag? ≠ none := by simp [htag]
  rcases Directive.collapses_cases ds with hds | ⟨before, d, after, rfl, hbefore, hd⟩
  · exact .inl ⟨hds, exists_ofNode hsome hds h.not_leavesText id⟩
  · exact .inr ⟨⟨d, by simp, hd⟩, _, _, ofNode_of_collapses hsome hbefore hd id⟩

end SourceBlock

end FencedCode
