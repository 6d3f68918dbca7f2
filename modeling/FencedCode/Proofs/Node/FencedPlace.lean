import FencedCode.Proofs.ContainerPrefix
import FencedCode.Proofs.LineIndex.Offsets
import FencedCode.Proofs.Markdown.FencedLines

/-!
# Where a fenced code block stands

The node of a fenced code block starts on the line of its opening fence and stops as many lines
below as the block has lines of code, or one more when the block ends on a line that is no code. The
lines between are those of the code, one after the other.
-/

namespace FencedCode

namespace Markdown.Span

variable {text upto rest : List Char} {start : Nat}

/-- A last character is dropped from the span where the text up to its end has it there. -/
theorem dropLast?_eq (h : text = upto ++ rest) (start : Nat) (c : Char) :
    (Span.mk start (Text.byteLength upto)).dropLast? text c =
      if start < Text.byteLength upto ∧ upto.getLast? = some c then
        some ⟨start, Text.byteLength upto.dropLast⟩
      else none := by
  simp only [dropLast?, h, Text.takeBytes_byteLength_append, Bool.and_eq_true, decide_eq_true_eq,
    beq_iff_eq]
  split
  · next hlast =>
    obtain ⟨init, rfl⟩ := List.getLast?_eq_some_iff.mp hlast.2
    simp
  · rfl

private theorem start_of_dropLast? {s s' : Span} {c : Char} (h : s.dropLast? text c = some s') :
    s'.start = s.start := by
  unfold dropLast? at h
  split at h
  · rw [← Option.some.inj h]
  · cases h

private theorem start_dropTerminator (s : Span) (text : List Char) :
    (s.dropTerminator text).start = s.start := by
  unfold dropTerminator
  split
  · rfl
  · next s' hs' =>
    cases hreturn : s'.dropLast? text '\r' with
    | none => exact start_of_dropLast? hs'
    | some s'' => exact (start_of_dropLast? hreturn).trans (start_of_dropLast? hs')

private theorem start_le_stop_of_dropLast? {s s' : Span} {c : Char} (hc : c.utf8Size = 1)
    (h : s.dropLast? text c = some s') : s'.start ≤ s'.stop := by
  unfold dropLast? at h
  split at h
  · next hlast =>
    simp only [Bool.and_eq_true, decide_eq_true_eq] at hlast
    rw [← Option.some.inj h]
    simp only
    omega
  · cases h

/-- A span does not end before it starts without its terminator. -/
theorem start_le_stop_dropTerminator {s : Span} (h : s.start ≤ s.stop) (text : List Char) :
    (s.dropTerminator text).start ≤ (s.dropTerminator text).stop := by
  unfold dropTerminator
  split
  · exact h
  · next s' hs' =>
    cases hreturn : s'.dropLast? text '\r' with
    | none => exact start_le_stop_of_dropLast? rfl hs'
    | some s'' => exact start_le_stop_of_dropLast? rfl hreturn

/-- A span that does not end in a line feed has no terminator. -/
private theorem dropTerminator_of_ne (h : text = upto ++ rest) (hlast : upto.getLast? ≠ some '\n')
    (start : Nat) : (Span.mk start (Text.byteLength upto)).dropTerminator text =
      ⟨start, Text.byteLength upto⟩ := by
  rw [dropTerminator, dropLast?_eq h, if_neg fun hdrop ↦ hlast hdrop.2]

/-- A span that ends in a line feed loses it, and nothing else but a carriage return. -/
private theorem dropTerminator_feed {init : List Char} (h : text = (init ++ ['\n']) ++ rest)
    (hstart : start < Text.byteLength (init ++ ['\n'])) :
    ∃ kept, kept <+: init ∧ kept.count '\n' = init.count '\n' ∧
      (Span.mk start (Text.byteLength (init ++ ['\n']))).dropTerminator text =
        ⟨start, Text.byteLength kept⟩ := by
  rw [dropTerminator, dropLast?_eq h, if_pos ⟨hstart, List.getLast?_concat⟩, List.dropLast_concat]
  have hinit : text = init ++ ('\n' :: rest) := by rw [h, List.append_assoc]; rfl
  simp only [dropLast?_eq hinit]
  split
  · next hreturn =>
    obtain ⟨kept, rfl⟩ := List.getLast?_eq_some_iff.mp hreturn.2
    refine ⟨kept, List.prefix_append _ _, ?_, by simp⟩
    rw [List.count_append]
    rfl
  · exact ⟨init, List.prefix_refl _, rfl, rfl⟩

end Markdown.Span

open Markdown

namespace Markdown.FencedBlock

variable {text : List Char} (b : FencedBlock text)

private theorem exists_opening_eq : ∃ cs, b.opening = b.mark :: cs := by
  obtain ⟨n, hn⟩ := Nat.exists_eq_add_of_le' b.three_le
  refine ⟨List.replicate (n + 2) b.mark ++ b.info, ?_⟩
  rw [opening, hn]
  rfl

/-- The text up to the end of the block is the text before it with the block. -/
theorem upto_eq : b.upto = b.before ++ (b.opening ++ b.raw ++ b.ending) := by simp [upto]

private theorem clamp_span : b.span.clamp (Text.byteLength text) = b.span := by
  have hstop : Text.byteLength text = Text.byteLength b.upto + Text.byteLength b.rest := by
    rw [← Text.byteLength_append, ← b.text_eq_upto]
  have hstart : Text.byteLength b.upto =
      Text.byteLength b.before + Text.byteLength (b.opening ++ b.raw ++ b.ending) := by
    rw [← Text.byteLength_append, ← b.upto_eq]
  simp only [Span.clamp, span, Span.mk.injEq]
  omega

private theorem slice_span :
    Text.slice b.span.start b.span.stop text = b.opening ++ b.raw ++ b.ending := by
  have hslice := Text.slice_append b.before (b.opening ++ b.raw ++ b.ending) b.rest
  rwa [← b.upto_eq, ← b.text_eq_upto] at hslice

/-- The node of the block takes up the bytes of the block but a terminator at its end: a fence is
not skipped as a container prefix. -/
theorem span_code : NodeKind.code.span text b.span = b.span.dropTerminator text := by
  obtain ⟨cs, hopening⟩ := b.exists_opening_eq
  have hmember : ContainerPrefix.isMember b.mark = false := by
    rcases b.isMark with h | h
    all_goals
      rw [h]
      decide
  have hskipped : ContainerPrefix.byteLength
      (firstLine (Text.slice b.span.start b.span.stop text)) = 0 := by
    rw [b.slice_span, hopening, List.cons_append, List.cons_append, firstLine,
      List.takeWhile_cons_of_pos (by simpa using b.mark_ne_feed), ContainerPrefix.byteLength_eq,
      ContainerPrefix.of, List.takeWhile_cons_of_neg (by simp [hmember]), Text.byteLength_nil]
  simp only [NodeKind.span, b.clamp_span, NodeKind.isVerbatim, beq_self_eq_true, Bool.true_or,
    if_true, hskipped, Nat.add_zero]

private theorem place_start : (NodeKind.code.place (.ofText text) b.span).start =
    (LineIndex.ofText text).position (Text.byteLength b.before) := by
  have hstart : (NodeKind.code.span text b.span).start = Text.byteLength b.before := by
    rw [b.span_code, Span.start_dropTerminator]
    rfl
  rw [← hstart]
  rfl

/-- The node starts on the line of the opening fence. -/
theorem line_start : (NodeKind.code.place (.ofText text) b.span).start.line =
    b.before.count '\n' + 1 := by
  have htext : (LineIndex.ofText text).text =
      b.before ++ (b.opening ++ b.raw ++ b.ending ++ b.rest) := by
    rw [LineIndex.ofText_text, ← List.append_assoc, ← b.upto_eq]
    exact b.text_eq_upto
  rw [b.place_start, LineIndex.position_line htext]

/-- The line with the opening fence starts with what stands before the block since the last line
feed. -/
private theorem exists_line?_opening : ∃ init lead, b.before = init ++ lead ∧ '\n' ∉ lead ∧
    (LineIndex.ofText text).line? (b.before.count '\n' + 1) =
      some ⟨Text.byteLength init, lead ++ b.opening⟩ := by
  obtain ⟨init, lead, hsplit, hinit, hlead⟩ := Text.exists_splitLines b.before
  have hbefore : b.before = init.flatten ++ lead := by
    rw [← Text.flatten_splitLines b.before, hsplit]
    simp
  have hcount : init.flatten.count '\n' = b.before.count '\n' := by
    rw [hbefore, List.count_append, List.count_eq_zero.mpr hlead, Nat.add_zero]
  have htext : (LineIndex.ofText text).text = init.flatten ++ (lead ++ b.opening) ++ b.after := by
    calc text = b.before ++ b.opening ++ b.after := b.text_eq
      _ = init.flatten ++ (lead ++ b.opening) ++ b.after := by
        rw [hbefore]
        simp
  have hline := LineIndex.line?_of_complete htext ⟨init, hinit, rfl⟩
    (b.opening_terminated.imp (·.append_left hlead) fun h ↦ ⟨by simp [hlead, h.1], h.2⟩)
  rw [hcount] at hline
  exact ⟨_, lead, hbefore, hlead, hline⟩

/-- Behind the marks of its opening fence, the line goes on with another character. -/
private theorem exists_text_opening (start : Nat) {lead : List Char} (hlead : '\n' ∉ lead) :
    ∃ info, (Line.mk start (lead ++ b.opening)).text =
      lead ++ (List.replicate b.length b.mark ++ info) ∧ info.head? ≠ some b.mark := by
  have hinfo : Text.Terminated b.info ∨ '\n' ∉ b.info := b.terminated.imp_right (·.1)
  have hmarks : '\n' ∉ lead ++ List.replicate b.length b.mark := by
    simp only [List.mem_append, hlead, b.feed_not_mem_marks, or_self, not_false_eq_true]
  have hlast : (lead ++ List.replicate b.length b.mark).getLast? ≠ some '\r' := by
    have hlength := b.three_le
    rw [List.getLast?_append, List.getLast?_replicate, if_neg (by omega), Option.some_or]
    exact fun h ↦ b.mark_ne_return (Option.some.inj h)
  refine ⟨(Line.mk start b.info).text, ?_, fun hhead ↦ ?_⟩
  · rw [opening, ← List.append_assoc, Line.text_append start hmarks hlast hinfo, List.append_assoc]
  · obtain ⟨cs, hcs⟩ := List.head?_eq_some_iff.mp hhead
    obtain ⟨more, hmore⟩ := (Line.text_prefix start hinfo).1
    rw [hcs] at hmore
    exact b.info_head (by rw [← hmore]; rfl)

/-- The column of the node is that of the opening fence on its line. -/
theorem exists_lineText?_opening : ∃ lead info,
    (LineIndex.ofText text).lineText? (b.before.count '\n' + 1) =
        some (lead ++ (List.replicate b.length b.mark ++ info)) ∧
      (NodeKind.code.place (.ofText text) b.span).start.column = lead.length + 1 ∧
        info.head? ≠ some b.mark := by
  obtain ⟨init, lead, hbefore, hlead, hline⟩ := b.exists_line?_opening
  obtain ⟨info, hsaid, hinfo⟩ := b.exists_text_opening (Text.byteLength init) hlead
  refine ⟨lead, info, ?_, ?_, hinfo⟩
  · rw [LineIndex.lineText?, hline, Option.map_some, hsaid]
  · obtain ⟨before, after, har⟩ := LineIndex.exists_around hline
    have hinside : Text.byteLength lead < Text.byteLength (lead ++ b.opening) := by
      obtain ⟨cs, hcs⟩ := b.exists_opening_eq
      have hpos := b.mark.utf8Size_pos
      simp only [hcs, Text.byteLength_append, Text.byteLength_cons]
      omega
    rw [b.place_start, hbefore, Text.byteLength_append, har.position_eq (.inl hinside)]
    simp only [hsaid, LineIndex.charsBefore_append]

/-- The node stops on the line of the last character of the block. -/
private theorem line_stop_add : (NodeKind.code.place (.ofText text) b.span).stop.line +
    (if b.upto.getLast? = some '\n' then 1 else 0) = b.upto.count '\n' + 1 := by
  have hline {kept : List Char} (hkept : kept <+: b.upto)
      (hstop : b.span.dropTerminator text = ⟨b.span.start, Text.byteLength kept⟩) :
      (NodeKind.code.place (.ofText text) b.span).stop.line = kept.count '\n' + 1 := by
    obtain ⟨more, hmore⟩ := hkept
    have htext : (LineIndex.ofText text).text = kept ++ (more ++ b.rest) := by
      rw [← List.append_assoc, hmore]
      exact b.text_eq_upto
    rw [← LineIndex.position_line htext, NodeKind.place, LineIndex.ofText_text, b.span_code, hstop]
  split
  · next hlast =>
    obtain ⟨init, hinit⟩ := List.getLast?_eq_some_iff.mp hlast
    have hstart : b.span.start < Text.byteLength (init ++ ['\n']) := by
      obtain ⟨cs, hopening⟩ := b.exists_opening_eq
      have hpos := b.mark.utf8Size_pos
      rw [← hinit, b.upto_eq, hopening]
      simp only [span, Text.byteLength_append, List.cons_append, Text.byteLength_cons]
      omega
    obtain ⟨kept, hkept, hcount, hstop⟩ :=
      Span.dropTerminator_feed (hinit ▸ b.text_eq_upto) hstart
    have hkept' : kept <+: b.upto := hkept.trans (hinit ▸ List.prefix_append _ _)
    rw [hline hkept' (by rw [← hstop, ← hinit]; rfl), hcount, hinit, List.count_append]
    rfl
  · next hlast =>
    exact hline (List.prefix_refl _) (Span.dropTerminator_of_ne b.text_eq_upto hlast _)

/-- What ends the block on a line that is no code is a margin, marks and blanks. -/
private theorem not_mem_ending {c : Char} (hc : isMargin c = false) (hmark : b.mark ≠ c) :
    c ∉ b.ending := by
  rcases b.body.ending_cases with hnil | ⟨lead, closing, heq, hlead, hclosing⟩
  · simp [hnil]
  · have hclosing : c ∉ closing := by
      rcases hclosing with ⟨rfl, -⟩ | ⟨marks, blanks, -, rfl, -⟩
      · simp
      · have hblank : c ≠ ' ' := fun hblank ↦ by simp [hblank, isMargin] at hc
        simp [List.mem_replicate, hmark.symm, hblank]
    rw [heq]
    intro hmem
    rcases List.mem_append.mp hmem with hmem | hmem
    · simp [hlead c hmem] at hc
    · exact hclosing hmem

private theorem feed_not_mem_ending : '\n' ∉ b.ending := b.not_mem_ending rfl b.mark_ne_feed

private theorem getLast?_append_ne_feed {cs : List Char} (h : '\n' ∉ cs) (hne : cs ≠ [])
    (before : List Char) : (before ++ cs).getLast? ≠ some '\n' := by
  obtain ⟨init, c, rfl⟩ := (List.eq_nil_or_concat cs).resolve_left hne
  rw [List.concat_eq_append] at h ⊢
  rw [← List.append_assoc, List.getLast?_concat]
  exact fun hlast ↦ h (by simp [Option.some.inj hlast])

/-- The lines from the opening fence on all have line feeds, or the last one of them ends the
text. -/
theorem complete_or : (Text.Complete (b.before ++ b.opening ++ b.raw) ∧
      (b.before ++ b.opening ++ b.raw).count '\n' = b.before.count '\n' + 1 + b.lines.length) ∨
    (b.ending = [] ∧ b.rest = [] ∧ b.upto.getLast? ≠ some '\n' ∧
      b.upto.count '\n' = b.before.count '\n' + b.lines.length) := by
  rcases b.opening_terminated with hterm | ⟨hnot, hafter⟩
  · rcases b.body.complete_or with
      ⟨hcomplete, hcount⟩ | ⟨hending, hrest, init, last, hraw, hcount, hlast, hne⟩
    · refine .inl ⟨(hterm.complete_append _).append hcomplete, ?_⟩
      rw [List.count_append, List.count_append, hterm.count_feed, raw, hcount]
    · have hupto : b.upto = b.before ++ b.opening ++ init ++ last := by
        rw [upto, hending, List.append_nil, raw, hraw, ← List.append_assoc]
      refine .inr ⟨hending, hrest, hupto ▸ getLast?_append_ne_feed hlast hne _, ?_⟩
      rw [hupto, List.count_append, List.count_append, List.count_append, hterm.count_feed,
        List.count_eq_zero.mpr hlast]
      omega
  · have hbody := b.body
    rw [hafter] at hbody
    obtain ⟨hlines, hending, hrest⟩ := hbody.eq_nil_of_nil
    have hupto : b.upto = b.before ++ b.opening := by simp [upto, raw, hlines, hending]
    obtain ⟨cs, hcs⟩ := b.exists_opening_eq
    refine .inr ⟨hending, hrest, hupto ▸ getLast?_append_ne_feed hnot (by simp [hcs]) _, ?_⟩
    rw [hupto, List.count_append, List.count_eq_zero.mpr hnot, hlines]
    rfl

/-- The node stops as many lines below its start as the block has lines of code, or one more when
the block ends on a line that is no code. -/
theorem line_stop : (NodeKind.code.place (.ofText text) b.span).stop.line =
    b.before.count '\n' + 1 + b.lines.length + if b.ending = [] then 0 else 1 := by
  have hstop := b.line_stop_add
  rcases b.complete_or with ⟨hcomplete, hcount⟩ | ⟨hending, -, hlast, hcount⟩
  · by_cases hending : b.ending = []
    · have hupto : b.upto = b.before ++ b.opening ++ b.raw := by simp [upto, hending]
      obtain ⟨cs, hcs⟩ := b.exists_opening_eq
      have hlast := hcomplete.getLast? (by simp [hcs])
      rw [hupto, hcount, if_pos hlast] at hstop
      rw [if_pos hending]
      omega
    · have hlast := getLast?_append_ne_feed b.feed_not_mem_ending hending
        (b.before ++ b.opening ++ b.raw)
      rw [upto, List.count_append, hcount, List.count_eq_zero.mpr b.feed_not_mem_ending,
        if_neg hlast] at hstop
      rw [if_neg hending]
      omega
  · rw [if_neg hlast, hcount] at hstop
    rw [if_pos hending]
    omega

/-- The lines of code are the lines of the text after that of the opening fence; one without a line
feed is the last line of the text. -/
theorem line?_code {k : Nat} {l : FencedLine} (hl : b.lines[k]? = some l) :
    ∃ start, (LineIndex.ofText text).line? (b.before.count '\n' + 2 + k) = some ⟨start, l.raw⟩ ∧
      l.IsLine ∧ (Text.Terminated l.code ∨
        ('\n' ∉ l.code ∧ (LineIndex.ofText text).lineCount = b.before.count '\n' + 2 + k)) := by
  obtain ⟨before, after, hafter, hbefore, hcount, hline, hcode⟩ := b.body.around hl
  have hterm : Text.Terminated b.opening := by
    refine b.opening_terminated.resolve_right fun hnone ↦ ?_
    have hnil := hnone.2
    rw [hafter, List.append_assoc, List.append_eq_nil_iff, List.append_eq_nil_iff] at hnil
    exact hline.raw_ne_nil hnil.2.1
  have htext : (LineIndex.ofText text).text =
      (b.before ++ b.opening ++ before) ++ l.raw ++ after := by
    calc text = b.before ++ b.opening ++ b.after := b.text_eq
      _ = (b.before ++ b.opening ++ before) ++ l.raw ++ after := by
        rw [hafter]
        simp
  have hnumber : (b.before ++ b.opening ++ before).count '\n' + 1 =
      b.before.count '\n' + 2 + k := by
    rw [List.count_append, List.count_append, hterm.count_feed, hcount]
    omega
  have hline? := LineIndex.line?_of_complete htext ((hterm.complete_append _).append hbefore)
    (hcode.imp hline.terminated_raw fun h ↦ ⟨hline.feed_not_mem_raw h.1, h.2⟩)
  rw [hnumber] at hline?
  refine ⟨_, hline?, hline, hcode.imp_right fun ⟨hnot, hnil⟩ ↦ ⟨hnot, ?_⟩⟩
  rw [LineIndex.lineCount_eq, htext, hnil, List.append_nil, List.count_append,
    List.count_eq_zero.mpr (hline.feed_not_mem_raw hnot), Nat.add_zero, hnumber]

/-- The line below the lines of code, when the block ends on it, closes the fence. -/
theorem lineText?_ending (h : b.ending ≠ []) :
    ∃ last, (LineIndex.ofText text).lineText?
        (b.before.count '\n' + 2 + b.lines.length) = some last ∧
      EndsFence b.mark b.length last := by
  obtain ⟨hcomplete, hcount⟩ := b.complete_or.resolve_right fun hnone ↦ h hnone.1
  obtain ⟨lead, closing, hending, hlead, hclosing⟩ := b.body.ending_cases.resolve_left h
  have hreturn : '\r' ∉ b.ending := b.not_mem_ending rfl b.mark_ne_return
  have htext : (LineIndex.ofText text).text = (b.before ++ b.opening ++ b.raw) ++
      (b.ending ++ rawLine b.rest) ++ b.rest.drop (rawLine b.rest).length := by
    calc text = b.upto ++ b.rest := b.text_eq_upto
      _ = b.upto ++ (rawLine b.rest ++ b.rest.drop (rawLine b.rest).length) := by
        rw [rawLine_append_drop]
      _ = _ := by simp [upto]
  have hraw := rawLine_terminated b.rest
  have hline := LineIndex.line?_of_complete htext hcomplete
    (hraw.imp (·.append_left b.feed_not_mem_ending) fun hnone ↦
      ⟨by simp [b.feed_not_mem_ending, hnone.1], hnone.2⟩)
  generalize Text.byteLength (b.before ++ b.opening ++ b.raw) = start at hline
  obtain ⟨hstart, hfeed⟩ := Line.text_prefix start (hraw.imp_right (·.1))
  have hsplit := Line.text_append start b.feed_not_mem_ending
    (fun hlast ↦ hreturn (List.mem_of_getLast? hlast)) (hraw.imp_right (·.1))
  refine ⟨(Line.mk start (b.ending ++ rawLine b.rest)).text, ?_, lead, closing, _,
    by rw [hsplit, hending], hlead, hclosing.of_prefix (hstart.trans ?_) hfeed⟩
  · have hnumber : b.before.count '\n' + 2 + b.lines.length =
        (b.before ++ b.opening ++ b.raw).count '\n' + 1 := by omega
    rw [hnumber, LineIndex.lineText?, hline]
    rfl
  · exact ⟨_, rawLine_append_drop b.rest⟩

end Markdown.FencedBlock

end FencedCode
