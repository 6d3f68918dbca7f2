import FencedCode.Proofs.Fence
import FencedCode.Proofs.Fragment.Indent
import FencedCode.Proofs.Fragment.Success
import FencedCode.Proofs.Node.Fenced
import FencedCode.Proofs.Node.FencedPlace

/-!
# Code lines and content lines

Where the code of a fragment ends is settled twice: when the text is read, and when the lines of the
block are read once more to make a source. The lines of a node's value stand one by one on the lines
below its first one, and the two readings part company on the last line only: one that is no code
may not be taken for the closing fence, and one that is code may be. They agree on blocks whose
fences stand behind container prefix alone.
-/

namespace FencedCode

open Markdown

/-- The lines of a node's value, without their line feeds. -/
def Node.codeLines (n : Node) : List (List Char) := Text.lines (n.value.getD [])

namespace Node.Shows

variable {text : List Char} {n : Node} {b : FencedBlock text}

/-- The code lines of the node are the texts of the lines of the block. -/
theorem codeLines_eq (h : n.Shows b) : n.codeLines = b.lines.map FencedLine.text := by
  rw [codeLines, h.value_eq, Option.getD_some, FencedBlock.value, b.body.lines_value]

/-- A node that shows a block stands on lines of the text. -/
theorem liesIn (h : n.Shows b) : n.LiesIn (.ofText text) :=
  NodeKind.liesIn_of_place h.range_eq

/-- The node starts on the line of the opening fence. -/
theorem start_line (h : n.Shows b) : n.range.start.line = b.before.count '\n' + 1 := by
  rw [h.range_eq, b.line_start]

private theorem height_eq (h : n.Shows b) :
    n.range.height = n.codeLines.length + if b.ending = [] then 0 else 1 := by
  rw [Range.height, h.start_line, h.range_eq, b.line_stop, h.codeLines_eq, List.length_map]
  omega

/-- The node ends on the line of the closing fence, or on the last line of the code. -/
theorem stop_line (h : n.Shows b) :
    n.range.stop.line =
      n.range.start.line + n.codeLines.length + if b.ending = [] then 0 else 1 := by
  rw [h.start_line, h.range_eq, b.line_stop, h.codeLines_eq, List.length_map]

private theorem stop_line_of_ending (h : n.Shows b) (hending : b.ending ≠ []) :
    n.range.stop.line = b.before.count '\n' + 2 + b.lines.length := by
  rw [h.stop_line, h.start_line, h.codeLines_eq, if_neg hending, List.length_map]
  omega

end Node.Shows

/-- A tagged node of a document shows a fenced code block of its text. -/
theorem Document.showsFence_of_languageTag? {text : List Char} {n : Node} {tag : List Char}
    (hn : n ∈ (ofText text).root.preorder) (htag : n.languageTag? = some tag) :
    n.ShowsFence text := by
  apply showsFence hn
  intro hlang
  rw [Node.languageTag?, hlang] at htag
  cases htag

/-- When a block is as many lines high as it should have content lines, or one more, their number is
right if the last line is taken for the closing fence just in the second case. -/
theorem CodeLines.count_eq_iff {x : LineIndex} {n : Node} {indent count : Nat} {body : CodeLines}
    (h : ofNode x n indent = .ok body)
    (hheight : n.range.height = count ∨ n.range.height = count + 1) :
    body.count = count ↔ (n.ClosedByLastLine x indent ↔ n.range.height = count + 1) := by
  rw [Range.height] at hheight ⊢
  rcases ofNode_eq_ok h with ⟨hclosed, rfl⟩ | ⟨hopen, rfl⟩
  · have hlt := hclosed.1
    simp only [hclosed, true_iff]
    omega
  · simp only [hopen, false_iff]
    omega

/-- Whether the last line of a code block is no code: it closes the fence that stands where the
block starts, or has nothing but a margin where the text ends. -/
def Node.EndsOnFence (x : LineIndex) (n : Node) : Prop :=
  ∃ opening last mark, x.lineText? n.range.start.line = some opening ∧
    x.lineText? n.range.stop.line = some last ∧
      (opening.drop (n.range.start.column - 1)).head? = some mark ∧
        EndsFence mark (Fence.runLength mark (opening.drop (n.range.start.column - 1))) last

private theorem Node.Shows.endsOnFence {text : List Char} {n : Node} {b : FencedBlock text}
    (h : n.Shows b) (hending : b.ending ≠ []) : n.EndsOnFence (LineIndex.ofText text) := by
  obtain ⟨last, hlast, hends⟩ := b.lineText?_ending hending
  obtain ⟨lead, info, hopening, hcolumn, hinfo⟩ := b.exists_lineText?_opening
  have hdrop : (lead ++ (List.replicate b.length b.mark ++ info)).drop (n.range.start.column - 1) =
      List.replicate b.length b.mark ++ info := by
    rw [h.range_eq, hcolumn, Nat.add_sub_cancel, List.drop_left]
  have hrun : Fence.runLength b.mark (List.replicate b.length b.mark ++ info) = b.length :=
    Fence.runLength_replicate_append b.mark b.length hinfo
  rw [← h.start_line] at hopening
  rw [← h.stop_line_of_ending hending] at hlast
  refine ⟨_, last, b.mark, hopening, hlast, ?_, ?_⟩
  · rw [hdrop]
    exact Fence.head?_replicate_append _ (Nat.lt_of_lt_of_le (by decide) b.three_le) _
  · rwa [hdrop, hrun]

/-! ## Fences told by their lines -/

/-- What the margin of a fence consists of belongs to a container prefix. -/
theorem isMember_of_isMargin {c : Char} (h : isMargin c = true) :
    ContainerPrefix.isMember c = true := by
  simp only [isMargin, Bool.or_eq_true, beq_iff_eq] at h
  rcases h with (rfl | rfl) | rfl
  all_goals rfl

/-- Whether nothing but container prefix stands before the opening fence of a block. -/
def Node.OpensBehindPrefix (x : LineIndex) (n : Node) : Prop :=
  ∃ opening, x.lineText? n.range.start.line = some opening ∧
    ∀ c ∈ opening.take (n.range.start.column - 1), ContainerPrefix.isMember c = true

/-- Whether a closing fence on a line is left for all to see when `indent` characters of container
prefix are taken off: no quote marker stays before it, there is more than such prefix on the line,
and no carriage return splits it. -/
def ClosesPlainly (indent : Nat) (last : List Char) : Prop :=
  ContainerPrefix.marker ∉ (dropIndent indent last).2 ∧
    (∃ c ∈ last, ContainerPrefix.isMember c = false) ∧ '\r' ∉ last

/-- Whether the lines of a block tell where its code ends. When it is closed, it opens behind
container prefix alone and closes plainly; when it is left open, no fence starts behind the
container prefix of its last line. -/
def Node.PlainlyFenced (x : LineIndex) (n : Node) : Prop :=
  ∃ last, x.lineText? n.range.stop.line = some last ∧
    ((n.range.height = n.codeLines.length + 1 ∧ n.OpensBehindPrefix x ∧
        ClosesPlainly (containerIndent x n) last) ∨
      (n.range.height = n.codeLines.length ∧
        ∀ m : FenceMark, (last.dropWhile ContainerPrefix.isMember).head? ≠ some m.char))

/-- What ends the block on a line that closes plainly is read as a closing fence. -/
theorem Fence.closedBy_dropIndent {f : Fence} {last : List Char} {indent : Nat}
    (hpos : 0 < f.length) (hends : EndsFence f.mark.char f.length last)
    (hplain : ClosesPlainly indent last) (hfeed : '\n' ∉ last) :
    f.closedBy (dropIndent indent last).2 = true := by
  obtain ⟨lead, closing, rest, rfl, hlead, hclosing⟩ := hends
  obtain ⟨hmarker, ⟨c, hc, hmember⟩, hreturn⟩ := hplain
  have hmembers : ∀ c ∈ lead, ContainerPrefix.isMember c = true :=
    fun c hc ↦ isMember_of_isMargin (hlead c hc)
  rcases hclosing with ⟨rfl, rfl⟩ | ⟨marks, blanks, hle, rfl, hending⟩
  · rw [List.append_nil, List.append_nil] at hc
    rw [hmembers c hc] at hmember
    cases hmember
  · obtain rfl : rest = [] := by
      unfold endingLength? at hending
      split at hending <;> simp_all
    have hmarks := Nat.lt_of_lt_of_le hpos hle
    have hhead : ∀ c, (List.replicate marks f.mark.char ++ List.replicate blanks ' ').head? =
        some c → ContainerPrefix.isMember c = false := by
      intro c hc
      rw [Fence.head?_replicate_append _ hmarks] at hc
      exact Option.some.inj hc ▸ f.mark.isMember_char
    rw [List.append_nil, dropIndent_append_of_head? hmembers hhead] at hmarker ⊢
    refine f.closedBy_replicate ?_ ?_ hmarks hle
    · intro c hc
      have hne : c ≠ ContainerPrefix.marker := fun heq ↦
        hmarker (List.mem_append_left _ (heq ▸ hc))
      simpa [ContainerPrefix.isMember, hne] using hmembers c (List.mem_of_mem_drop hc)
    · intro c hc
      rw [(List.mem_replicate.mp hc).2]
      rfl

namespace Node.Shows

variable {text : List Char} {n : Node} {b : FencedBlock text}

/-- An opening fence behind container prefix alone is the one that the first line is read as. -/
theorem exists_opening (h : n.Shows b) (hopens : n.OpensBehindPrefix (.ofText text)) :
    ∃ opening mark, (LineIndex.ofText text).lineText? n.range.start.line = some opening ∧
      b.mark = mark.char ∧
        Fence.opening? (dropIndent (containerIndent (.ofText text) n) opening).2 =
          some ⟨mark, b.length⟩ := by
  obtain ⟨lead, info, hline, hcolumn, hinfo⟩ := b.exists_lineText?_opening
  rw [← h.start_line] at hline
  rw [← h.range_eq] at hcolumn
  obtain ⟨opening, hopening, hmembers⟩ := hopens
  obtain rfl := Option.some.inj (hline.symm.trans hopening)
  rw [hcolumn, Nat.add_sub_cancel, List.take_left] at hmembers
  obtain ⟨mark, hmark⟩ := FenceMark.exists_char_eq b.isMark
  have hindent : containerIndent (.ofText text) n = lead.length := by
    rw [containerIndent_eq hline, hcolumn, Nat.add_sub_cancel,
      ContainerPrefix.length_append hmembers]
    exact Nat.min_eq_left (Nat.le_add_right _ _)
  refine ⟨_, mark, hopening, hmark.symm, ?_⟩
  rw [hindent, dropIndent_append hmembers, ← hmark]
  exact Fence.opening?_replicate_append mark b.three_le (hmark ▸ hinfo)

private theorem closedByLastLine (h : n.Shows b) (hending : b.ending ≠ []) {last : List Char}
    (hlast : (LineIndex.ofText text).lineText? n.range.stop.line = some last)
    (hopens : n.OpensBehindPrefix (.ofText text))
    (hplain : ClosesPlainly (containerIndent (.ofText text) n) last) :
    n.ClosedByLastLine (.ofText text) (containerIndent (.ofText text) n) := by
  obtain ⟨opening, mark, hopening, hmark, hfence⟩ := h.exists_opening hopens
  obtain ⟨last', hlast', hends⟩ := b.lineText?_ending hending
  rw [← h.stop_line_of_ending hending] at hlast'
  obtain rfl := Option.some.inj (hlast'.symm.trans hlast)
  rw [hmark] at hends
  have hlength : 0 < b.length := Nat.lt_of_lt_of_le (by decide) b.three_le
  refine ⟨?_, opening, _, _, hopening, hlast, hfence, ?_⟩
  · rw [h.stop_line, if_neg hending]
    omega
  · exact Fence.closedBy_dropIndent hlength hends hplain (LineIndex.not_mem_of_lineText? hlast)

end Node.Shows

/-- A last line is not read as a closing fence without a fence character behind its container
prefix. -/
theorem Node.not_closedByLastLine {x : LineIndex} {n : Node} {indent : Nat} {last : List Char}
    (hlast : x.lineText? n.range.stop.line = some last)
    (hnone : ∀ m : FenceMark, (last.dropWhile ContainerPrefix.isMember).head? ≠ some m.char) :
    ¬n.ClosedByLastLine x indent := by
  rintro ⟨-, opening, last', f, -, hlast', hopening, hcloses⟩
  obtain rfl := Option.some.inj (hlast'.symm.trans hlast)
  have hpos : 0 < f.length :=
    Nat.lt_of_lt_of_le (by decide) (Fence.minLength_le_of_opening? hopening)
  have hhead := Fence.head?_trimStart_of_closedBy hpos hcloses
  obtain ⟨blanks, hblanks, hblank, -⟩ := Text.exists_trimStart (dropIndent indent last').2
  obtain ⟨rest, hrest⟩ := List.head?_eq_some_iff.mp hhead
  apply hnone f.mark
  rw [← dropWhile_dropIndent indent, hblanks, hrest,
    List.dropWhile_append_of_pos fun c hc ↦ ContainerPrefix.isMember_of_isBlank (hblank c hc),
    List.dropWhile_cons_of_neg (by simp [f.mark.isMember_char])]
  rfl

/-- The number of content lines is that of the lines of code where the lines of a block tell where
its code ends. -/
theorem Node.Shows.count_of_plainlyFenced {text : List Char} {n : Node} {b : FencedBlock text}
    {body : CodeLines} (h : n.Shows b)
    (hbody : CodeLines.ofNode (.ofText text) n (containerIndent (.ofText text) n) = .ok body)
    (hplain : n.PlainlyFenced (.ofText text)) : body.count = n.codeLines.length := by
  obtain ⟨last, hlast, ⟨hheight, hopens, hcloses⟩ | ⟨hheight, hnone⟩⟩ := hplain
  · have hending : b.ending ≠ [] := by
      intro hnil
      have hheight' := h.height_eq
      rw [if_pos hnil] at hheight'
      omega
    have hclosed := h.closedByLastLine hending hlast hopens hcloses
    exact (CodeLines.count_eq_iff hbody (.inr hheight)).mpr (iff_of_true hclosed hheight)
  · refine (CodeLines.count_eq_iff hbody (.inl hheight)).mpr (iff_of_false ?_ (by omega))
    exact Node.not_closedByLastLine hlast hnone

/-- The tagged nodes of a document show fenced code blocks of its text. Such a node takes up as many
lines below its first one as its value has, or one more, which is no code. As many lines are copied
into the source as the value has exactly when the last line is taken for the closing fence just in
the second case, and they are as many when the lines of the block tell where its code ends. -/
theorem Document.count_codeLines (text : List Char) :
    (∀ n ∈ (ofText text).root.preorder, ∀ tag, n.languageTag? = some tag → n.ShowsFence text) ∧
      ∀ n : Node, n.ShowsFence text →
        let x := LineIndex.ofText text
        let indent := containerIndent x n
        ∃ body, CodeLines.ofNode x n indent = .ok body ∧
          (n.range.height = n.codeLines.length ∨
            (n.range.height = n.codeLines.length + 1 ∧ n.EndsOnFence x)) ∧
          (body.count = n.codeLines.length ↔
            (n.ClosedByLastLine x indent ↔ n.range.height = n.codeLines.length + 1)) ∧
          (n.PlainlyFenced x → body.count = n.codeLines.length) := by
  refine ⟨fun n hn tag htag ↦ showsFence_of_languageTag? hn htag, ?_⟩
  rintro n ⟨b, hb⟩ x indent
  obtain ⟨body, hbody⟩ := hb.liesIn.exists_codeLines indent
  have hheight : n.range.height = n.codeLines.length ∨
      (n.range.height = n.codeLines.length + 1 ∧ n.EndsOnFence x) := by
    by_cases hending : b.ending = []
    · exact .inl (by rw [hb.height_eq, if_pos hending, Nat.add_zero])
    · exact .inr ⟨by rw [hb.height_eq, if_neg hending], hb.endsOnFence hending⟩
  exact ⟨body, hbody, hheight, CodeLines.count_eq_iff hbody (hheight.imp_right (·.1)),
    hb.count_of_plainlyFenced hbody⟩

/-- The lines of a quoted block tell where its code ends: its one line of code is what is copied. -/
theorem Document.count_codeLines_quoted :
    let text := "> ```js\n> a\n> ```\n".toList
    ∃ n ∈ (ofText text).root.preorder, n.PlainlyFenced (.ofText text) ∧ n.codeLines = ["a".toList] ∧
      ∃ body, CodeLines.ofNode (.ofText text) n (containerIndent (.ofText text) n) = .ok body ∧
        body.count = 1 := by
  intro text
  let n := (ofText text).root.preorder.get ⟨2, by decide +kernel⟩
  have htag : n.languageTag? = some "js".toList := by decide +kernel
  have hcode : n.codeLines = ["a".toList] := by decide +kernel
  have hopens : n.OpensBehindPrefix (.ofText text) :=
    ⟨"> ```js".toList, by decide +kernel, List.all_eq_true.mp (by decide +kernel)⟩
  have hcloses : ClosesPlainly (containerIndent (.ofText text) n) "> ```".toList :=
    ⟨by decide +kernel, ⟨'`', by decide, by decide⟩, by decide⟩
  have hplain : n.PlainlyFenced (.ofText text) :=
    ⟨"> ```".toList, by decide +kernel, .inl ⟨by decide +kernel, hopens, hcloses⟩⟩
  obtain ⟨hshows, hlines⟩ := count_codeLines text
  obtain ⟨body, hbody, -, -, hcount⟩ := hlines n (hshows n (List.get_mem _ _) _ htag)
  refine ⟨n, List.get_mem _ _, hplain, hcode, body, hbody, ?_⟩
  rw [hcount hplain, hcode]
  rfl

/-- In a list item the closing fence is copied like a line of code: one line makes two. -/
theorem Document.count_codeLines_ne :
    let text := "- ```js\n  x\n  ```\n".toList
    ∃ n ∈ (ofText text).root.preorder, n.languageTag? = some "js".toList ∧
      ∃ body, CodeLines.ofNode (.ofText text) n (containerIndent (.ofText text) n) = .ok body ∧
        body.count = 2 ∧ n.codeLines = ["x".toList] := by
  intro text
  let n := (ofText text).root.preorder.get ⟨3, by decide +kernel⟩
  exact ⟨n, List.get_mem _ _, by decide +kernel, ⟨2, 2, none⟩, by decide +kernel, rfl,
    by decide +kernel⟩

end FencedCode
