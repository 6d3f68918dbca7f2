import FencedCode.Node.Place
import FencedCode.Proofs.LineIndex.Lines
import FencedCode.Proofs.Markdown.Fenced
import Mathlib.Data.List.TakeWhile

/-!
# The lines of a fenced code block

The lines of the body of a fenced code block are lines of the text, one after the other, and those
of its value, one for one. What a line of the value says stands on the line of the text behind a
margin, but for blanks that a tab in the margin makes, and a carriage return that is lost on a last
line without a line feed.
-/

namespace FencedCode.Markdown

/-! ## A line -/

/-- Of a line with a line feed, a carriage return before that is dropped. -/
theorem dropCarriage_of_terminated {cs : List Char} (h : Text.Terminated cs) (start : Nat) :
    dropCarriage cs = (Line.mk start cs).text ++ ['\n'] := by
  obtain ⟨body, hbody, rfl⟩ := h
  by_cases hlast : body.getLast? = some '\r'
  · obtain ⟨init, rfl⟩ := List.getLast?_eq_some_iff.mp hlast
    rw [List.append_assoc, List.singleton_append, Line.text_append_return_feed]
    simp [dropCarriage, show '\n'.utf8Size = 1 from rfl]
  · rw [Line.text_append_feed hlast]
    unfold dropCarriage
    split
    · next c cs hrev =>
      rw [List.reverse_append, List.reverse_singleton, List.singleton_append] at hrev
      refine absurd ?_ hlast
      rw [← List.head?_reverse, (List.cons.inj hrev).2]
      rfl
    · rfl

private theorem dropCarriage_of_not_mem {cs : List Char} (h : '\r' ∉ cs) :
    dropCarriage cs = cs := by
  unfold dropCarriage
  split
  · next c rest hrev =>
    have hmem : '\r' ∈ cs.reverse := by simp [hrev]
    exact absurd (List.mem_reverse.mp hmem) h
  · rfl

private theorem feed_not_mem_dropCarriage {cs : List Char} (h : '\n' ∉ cs) :
    '\n' ∉ dropCarriage cs := by
  unfold dropCarriage
  split
  · next c rest hrev =>
    have hrest : '\n' ∉ cs.reverse := fun hmem ↦ h (List.mem_reverse.mp hmem)
    split
    · rw [hrev] at hrest
      rw [List.mem_reverse]
      exact fun hmem ↦ hrest (List.mem_cons.mpr
        ((List.mem_cons.mp hmem).imp_right (List.mem_cons_of_mem _)))
    · exact h
  · exact h

namespace FencedLine

variable {l : FencedLine}

/-- What the line adds to the value of the block, without its line feed. -/
def text (l : FencedLine) : List Char := firstLine l.value

private theorem text_of_terminated (h : Text.Terminated l.code) :
    l.value = l.text ++ ['\n'] ∧ '\n' ∉ l.text := by
  have hcode := (Line.text_prefix 0 (.inl h)).2
  have hbody : '\n' ∉ List.replicate l.owed ' ' ++ (Line.mk 0 l.code).text := by
    simp [List.mem_replicate, hcode]
  have hvalue : l.value = List.replicate l.owed ' ' ++ (Line.mk 0 l.code).text ++ ['\n'] := by
    rw [value, dropCarriage_of_terminated h 0, List.append_assoc]
  have htext : l.text = List.replicate l.owed ' ' ++ (Line.mk 0 l.code).text := by
    rw [text, hvalue, firstLine, List.takeWhile_append_of_pos]
    · simp
    · intro c hc
      simpa using fun hfeed : c = '\n' ↦ hbody (hfeed ▸ hc)
  rw [htext]
  exact ⟨hvalue, hbody⟩

/-- A line of code without a line feed has its value for its text. -/
theorem text_of_not_mem (h : '\n' ∉ l.code) : l.text = l.value ∧ '\n' ∉ l.value := by
  have hvalue : '\n' ∉ l.value := by
    simp [value, List.mem_replicate, feed_not_mem_dropCarriage h]
  refine ⟨List.takeWhile_eq_self_iff.mpr fun c hc ↦ ?_, hvalue⟩
  simpa using fun hfeed : c = '\n' ↦ hvalue (hfeed ▸ hc)

private theorem IsLine.value_ne_nil (h : l.IsLine) : l.value ≠ [] := by
  intro hnil
  obtain ⟨howed, hcode⟩ := List.append_eq_nil_iff.mp hnil
  rcases h.occupied with hne | hne
  · exact hne (by simpa using howed)
  · exact hne (dropCarriage_eq_nil.mp hcode)

/-- The line says the same in the text, behind its margin, and in the value, behind the blanks that
are owed, if it has a line feed or holds no carriage return. -/
theorem IsLine.exists_code (h : l.IsLine)
    (hcode : Text.Terminated l.code ∨ ('\n' ∉ l.code ∧ '\r' ∉ l.code)) (start : Nat) :
    ∃ code, (Line.mk start l.raw).text = l.lead ++ code ∧
      l.text = List.replicate l.owed ' ' ++ code := by
  have hraw : (Line.mk start l.raw).text = l.lead ++ (Line.mk start l.code).text := by
    refine Line.text_append start (feed_not_mem_of_isMargin h.isMargin) ?_ (hcode.imp_right (·.1))
    intro hlast
    exact absurd (h.isMargin _ (List.mem_of_getLast? hlast)) (by decide)
  refine ⟨_, hraw, ?_⟩
  rcases hcode with hterm | ⟨hnot, hnone⟩
  · obtain ⟨hvalue, -⟩ := text_of_terminated hterm
    rw [value, dropCarriage_of_terminated hterm start, ← List.append_assoc] at hvalue
    exact (List.append_cancel_right hvalue).symm
  · rw [(text_of_not_mem hnot).1, value, dropCarriage_of_not_mem hnone, Line.text_of_not_mem hnot]

/-- A raw line is terminated where its code is. -/
theorem IsLine.terminated_raw (h : l.IsLine) (hcode : Text.Terminated l.code) :
    Text.Terminated l.raw := hcode.append_left (feed_not_mem_of_isMargin h.isMargin)

/-- A raw line holds a line feed only in its code. -/
theorem IsLine.feed_not_mem_raw (h : l.IsLine) (hcode : '\n' ∉ l.code) : '\n' ∉ l.raw := by
  simp [raw, feed_not_mem_of_isMargin h.isMargin, hcode]

end FencedLine

/-! ## A body -/

namespace FencedBody

variable {mark : Char} {length : Nat} {cs ending rest : List Char} {lines : List FencedLine}

/-- Nothing is made of an empty text. -/
theorem eq_nil_of_nil (h : FencedBody mark length [] lines ending rest) :
    lines = [] ∧ ending = [] ∧ rest = [] := by
  have htext := h.text_eq
  obtain ⟨hlines, hrest⟩ := List.append_eq_nil_iff.mp htext.symm
  obtain ⟨hlines, hending⟩ := List.append_eq_nil_iff.mp hlines
  refine ⟨?_, hending, hrest⟩
  generalize hcs : ([] : List Char) = cs at h
  cases h with
  | left => rfl
  | closed => rfl
  | line hl =>
    exact absurd (List.append_eq_nil_iff.mp hcs.symm).1 hl.raw_ne_nil

/-- The lines of the value are what the lines of the body add to it. -/
theorem lines_value (h : FencedBody mark length cs lines ending rest) :
    Text.lines (lines.flatMap FencedLine.value) = lines.map FencedLine.text := by
  induction h with
  | left => rfl
  | closed => rfl
  | line hl hcode hbody ih =>
    rw [List.flatMap_cons, List.map_cons]
    rcases hcode with hterm | ⟨hnot, rfl⟩
    · obtain ⟨hvalue, hfeed⟩ := FencedLine.text_of_terminated hterm
      rw [hvalue, List.append_assoc, List.singleton_append, Text.lines_append hfeed, ih]
    · obtain ⟨rfl, -, -⟩ := hbody.eq_nil_of_nil
      obtain ⟨htext, hfeed⟩ := FencedLine.text_of_not_mem hnot
      rw [List.flatMap_nil, List.append_nil, Text.lines_of_not_mem hfeed hl.value_ne_nil, htext]
      rfl

/-- The text around a line of the body. -/
theorem around (h : FencedBody mark length cs lines ending rest) {k : Nat} {l : FencedLine}
    (hl : lines[k]? = some l) :
    ∃ before after, cs = before ++ l.raw ++ after ∧ Text.Complete before ∧ before.count '\n' = k ∧
      l.IsLine ∧ (Text.Terminated l.code ∨ ('\n' ∉ l.code ∧ after = [])) := by
  induction h generalizing k with
  | left => cases hl
  | closed => cases hl
  | @line l' cs ending rest lines hl' hcode hbody ih =>
    cases k with
    | zero =>
      obtain rfl : l' = l := Option.some.inj hl
      exact ⟨[], cs, rfl, Text.complete_nil, rfl, hl', hcode⟩
    | succ k =>
      rcases hcode with hterm | ⟨-, rfl⟩
      · obtain ⟨before, after, rfl, hbefore, hcount, hrest⟩ := ih (by simpa using hl)
        have hraw := hl'.terminated_raw hterm
        refine ⟨l'.raw ++ before, after, by simp, ?_, ?_, hrest⟩
        · exact (hraw.complete_append []).append hbefore
        · rw [List.count_append, hraw.count_feed, hcount, Nat.add_comm]
      · obtain ⟨rfl, -, -⟩ := hbody.eq_nil_of_nil
        simp at hl

/-- All lines of the body have a line feed, or the last one has none and ends the text. -/
theorem complete_or (h : FencedBody mark length cs lines ending rest) :
    (Text.Complete (lines.map FencedLine.raw).flatten ∧
        (lines.map FencedLine.raw).flatten.count '\n' = lines.length) ∨
      (ending = [] ∧ rest = [] ∧ ∃ init last, (lines.map FencedLine.raw).flatten = init ++ last ∧
        init.count '\n' + 1 = lines.length ∧ '\n' ∉ last ∧ last ≠ []) := by
  induction h with
  | left => exact .inl ⟨Text.complete_nil, rfl⟩
  | closed => exact .inl ⟨Text.complete_nil, rfl⟩
  | line hl hcode hbody ih =>
    simp only [List.map_cons, List.flatten_cons, List.length_cons]
    rcases hcode with hterm | ⟨hnot, rfl⟩
    · have hraw := hl.terminated_raw hterm
      rcases ih with ⟨hcomplete, hcount⟩ | ⟨hending, hrest, init, last, heq, hcount, hlast⟩
      · left
        refine ⟨(hraw.complete_append []).append hcomplete, ?_⟩
        rw [List.count_append, hraw.count_feed, hcount, Nat.add_comm]
      · refine .inr ⟨hending, hrest, _ ++ init, last, by rw [heq, List.append_assoc], ?_, hlast⟩
        rw [List.count_append, hraw.count_feed, ← hcount]
        omega
    · obtain ⟨rfl, hending, hrest⟩ := hbody.eq_nil_of_nil
      exact .inr ⟨hending, hrest, [], _, by simp, rfl, hl.feed_not_mem_raw hnot, hl.raw_ne_nil⟩

/-- What ends the body is a closing fence behind a margin. -/
theorem ending_cases (h : FencedBody mark length cs lines ending rest) :
    ending = [] ∨ ∃ lead closing, ending = lead ++ closing ∧ (∀ c ∈ lead, isMargin c = true) ∧
      ClosesFence mark length closing rest := by
  induction h with
  | left => exact .inl rfl
  | closed hlead hclosing => exact .inr ⟨_, _, rfl, hlead, hclosing⟩
  | line hl hcode hbody ih => exact ih

end FencedBody

end FencedCode.Markdown
