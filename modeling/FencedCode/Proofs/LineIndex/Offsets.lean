import FencedCode.Proofs.LineIndex.Lines

/-!
# Byte offsets and positions

The position of a byte offset that lies in a line, given by what stands before the line and the
distance from its start; and the byte offset of a position.
-/

namespace FencedCode.LineIndex

/-- At the end of a text all its characters have started. -/
theorem charsBefore_of_le {n : Nat} {cs : List Char} (h : Text.byteLength cs ≤ n) :
    charsBefore n cs = cs.length := by
  induction cs generalizing n with
  | nil => rfl
  | cons c cs ih =>
    have hpos := c.utf8Size_pos
    rw [Text.byteLength_cons] at h
    rw [charsBefore, if_pos (by omega), ih (by omega), List.length_cons]

/-- Bytes hold no more characters than the text. -/
theorem charsBefore_le_length (n : Nat) (cs : List Char) : charsBefore n cs ≤ cs.length := by
  induction cs generalizing n with
  | nil => exact Nat.le_refl _
  | cons c cs ih =>
    have hrest := ih (n - c.utf8Size)
    rw [charsBefore, List.length_cons]
    split
    · omega
    · omega

/-- As many characters start before the end of a leading part as the part has. -/
theorem charsBefore_append (before after : List Char) :
    charsBefore (Text.byteLength before) (before ++ after) = before.length := by
  induction before with
  | nil =>
    cases after with
    | nil => rfl
    | cons c cs => simp [charsBefore]
  | cons c before ih =>
    have hpos := c.utf8Size_pos
    rw [List.cons_append, Text.byteLength_cons, charsBefore, if_pos (by omega),
      Nat.add_sub_cancel_left, ih, List.length_cons]

/-- The characters of a text that start before a character of it and its terminator. -/
theorem charsBefore_take {raw text terminator : List Char} (h : raw = text ++ terminator)
    (i : Nat) : charsBefore (Text.byteLength (raw.take i)) text = min i text.length := by
  rcases Nat.le_total i text.length with hi | hi
  · rw [h, List.take_append_of_le_length hi, Nat.min_eq_left hi]
    have hcut := charsBefore_append (text.take i) (text.drop i)
    rwa [List.take_append_drop, List.length_take, Nat.min_eq_left hi] at hcut
  · rw [Nat.min_eq_right hi]
    apply charsBefore_of_le
    rw [h, List.take_append, List.take_of_length_le hi, Text.byteLength_append]
    exact Nat.le_add_right _ _

/-- An offset in a line has the position that its distance from the start of the line gives. The
place just after the last line's text belongs to it. -/
theorem Around.position_eq {x : LineIndex} {n : Nat} {l : Line} {before : List (List Char)}
    {after : List Char} (h : x.Around n l before after) {r : Nat}
    (hr : r < Text.byteLength l.raw ∨ (after = [] ∧ '\n' ∉ l.raw ∧ r = Text.byteLength l.raw)) :
    x.position (l.start + r) = ⟨n, charsBefore r l.text + 1, some (l.start + r)⟩ := by
  obtain ⟨rest, hrest, hlines⟩ : ∃ rest, (rest = [] ∨ r < Text.byteLength l.raw) ∧
      Text.splitLines x.text = before ++ l.raw :: rest := by
    rcases h.rest with ⟨-, -, hsplit⟩ | ⟨hterm, hsplit⟩
    · exact ⟨[], .inl rfl, hsplit⟩
    · refine ⟨_, .inr ?_, hsplit⟩
      rcases hr with hr | ⟨-, hfeed, -⟩
      · exact hr
      · obtain ⟨body, -, hraw⟩ := hterm
        simp [hraw] at hfeed
  have hle : r ≤ Text.byteLength l.raw := by
    rcases hr with hr | ⟨-, -, hr⟩ <;> omega
  have hmin : min (l.start + r) x.byteLength = l.start + r := by
    rw [byteLength, h.text_eq, Text.byteLength_append, Text.byteLength_append, h.start]
    omega
  -- the lines that start at or before the offset are those up to the given one
  have htake : x.lines.takeWhile (·.start ≤ l.start + r) = placeLines 0 before ++ [l] := by
    have hl : (⟨0 + Text.byteLength before.flatten, l.raw⟩ : Line) = l := by
      rw [Nat.zero_add, ← h.start]
    rw [x.lines_eq, hlines, placeLines_append, placeLines, hl, List.append_cons,
      List.takeWhile_append_of_pos]
    · have hnone : (placeLines (0 + Text.byteLength before.flatten + Text.byteLength l.raw)
          rest).takeWhile (·.start ≤ l.start + r) = [] := by
        cases rest with
        | nil => rfl
        | cons m rest =>
          have hlt : r < Text.byteLength l.raw := hrest.resolve_left (by simp)
          rw [placeLines, List.takeWhile_cons_of_neg]
          rw [Nat.zero_add, ← h.start]
          simpa using hlt
      rw [hnone, List.append_nil]
    · intro m hm
      rcases List.mem_append.mp hm with hm | hm
      · have hstart := start_le_of_mem_placeLines hm
        rw [Nat.zero_add, ← h.start] at hstart
        simp only [decide_eq_true_eq]
        omega
      · rw [List.mem_singleton.mp hm]
        simp
  unfold position
  simp only [hmin, htake, List.getLast?_concat, List.length_append, length_placeLines,
    List.length_singleton, Nat.add_sub_cancel_left, h.number]

/-- A position on a line, at most one past its last character, has a byte offset. -/
theorem offset?_eq {x : LineIndex} {n : Nat} {l : Line} (h : x.line? n = some l) {i : Nat}
    (hi : i ≤ l.text.length) (o : Option Nat) :
    x.offset? ⟨n, i + 1, o⟩ = some (l.start + Text.byteLength (l.text.take i)) := by
  simp only [offset?, h, hi, if_true]

/-- A place between characters of a line, its terminator included, divides the line in two. -/
theorem Around.exists_of_isBoundary {x : LineIndex} {n : Nat} {l : Line}
    {before : List (List Char)} {after : List Char} (h : x.Around n l before after) {r : Nat}
    (hstart : l.start ≤ r) (hstop : r ≤ l.start + Text.byteLength l.raw)
    (hr : Text.IsBoundary x.text r) :
    ∃ lead, lead <+: l.raw ∧ r = l.start + Text.byteLength lead := by
  obtain ⟨upto, rest, htext, rfl⟩ := hr
  rw [h.text_eq] at htext
  obtain ⟨lead, rfl⟩ := Text.prefix_of_byteLength_le
    ((List.append_assoc _ _ _).symm.trans htext) (by rw [← h.start]; exact hstart)
  refine ⟨lead, ?_, by rw [Text.byteLength_append, h.start]⟩
  have hlead := Text.prefix_of_byteLength_le htext.symm
    (by rwa [Text.byteLength_append before.flatten l.raw, ← h.start])
  exact (List.prefix_append_right_inj _).mp hlead

/-- Behind a leading part of a line stands a boundary between characters. -/
theorem Around.isBoundary {x : LineIndex} {n : Nat} {l : Line} {before : List (List Char)}
    {after : List Char} (h : x.Around n l before after) {lead rest : List Char}
    (hraw : l.raw = lead ++ rest) : Text.IsBoundary x.text (l.start + Text.byteLength lead) := by
  refine ⟨before.flatten ++ lead, rest ++ after, ?_, by rw [Text.byteLength_append, h.start]⟩
  rw [h.text_eq, hraw]
  simp

/-- Every place of a text lies on a line of it, and behind the line only at the end of the text. -/
theorem exists_around_of_le {x : LineIndex} {r : Nat} (hr : r ≤ x.byteLength) :
    ∃ n l before after, x.Around n l before after ∧ l.start ≤ r ∧
      (r - l.start < Text.byteLength l.raw ∨
        (after = [] ∧ '\n' ∉ l.raw ∧ r - l.start = Text.byteLength l.raw)) := by
  rcases Nat.lt_or_eq_of_le hr with hlt | hend
  · rw [byteLength, ← Text.flatten_splitLines x.text] at hlt
    obtain ⟨k, raw, hraw, hstart, hstop⟩ := Text.exists_piece hlt
    have hline := x.line?_succ k
    rw [hraw] at hline
    obtain ⟨before, after, h⟩ := exists_around hline
    exact ⟨_, _, before, after, h, hstart, .inl (by simp only; omega)⟩
  · obtain ⟨init, last, hsplit, -, hlast⟩ := Text.exists_splitLines x.text
    have hline := x.line?_succ init.length
    rw [hsplit, List.getElem?_concat_length, List.take_left' rfl] at hline
    obtain ⟨before, after, h⟩ := exists_around hline
    have hbytes : r = Text.byteLength init.flatten + Text.byteLength last := by
      rw [hend, byteLength, ← Text.flatten_splitLines x.text, hsplit]
      simp
    rcases h.rest with ⟨hraw, hafter, -⟩ | ⟨⟨body, -, hraw⟩, -⟩
    · exact ⟨_, _, before, after, h, by simp only; omega,
        .inr ⟨hafter, hraw, by simp only; omega⟩⟩
    · simp only at hraw
      simp [hraw] at hlast

/-- A place between characters divides the line of its position in two, and does not lie behind the
line's terminator. -/
theorem exists_around_position {x : LineIndex} {r : Nat} (hr : Text.IsBoundary x.text r) :
    ∃ l before after lead, x.Around (x.position r).line l before after ∧ lead <+: l.raw ∧
      r = l.start + Text.byteLength lead ∧ (lead = l.raw → '\n' ∉ l.raw) := by
  obtain ⟨n, l, before, after, h, hstart, hin⟩ := exists_around_of_le hr.le
  have hline := h.position_eq hin
  rw [Nat.add_sub_cancel' hstart] at hline
  obtain ⟨lead, hlead, hbytes⟩ := h.exists_of_isBoundary hstart (by omega) hr
  refine ⟨l, before, after, lead, by rwa [hline], hlead, hbytes, ?_⟩
  rintro rfl
  rcases hin with hin | ⟨-, hraw, -⟩
  · omega
  · exact hraw

/-- An offset past the end is taken for the end. -/
theorem position_min (x : LineIndex) (r : Nat) :
    x.position (min r x.byteLength) = x.position r := by
  unfold position
  rw [Nat.min_eq_left (Nat.min_le_right r x.byteLength)]

/-- The position of an offset is one in or after a line of the text. -/
theorem exists_line?_position (x : LineIndex) (r : Nat) :
    ∃ l i, x.line? (x.position r).line = some l ∧ i ≤ l.text.length ∧
      (x.position r).column = i + 1 := by
  obtain ⟨n, l, before, after, h, hstart, hin⟩ :=
    exists_around_of_le (Nat.min_le_right r x.byteLength)
  have hpos := h.position_eq hin
  rw [Nat.add_sub_cancel' hstart] at hpos
  rw [← x.position_min, hpos]
  exact ⟨l, _, h.line?_eq, charsBefore_le_length _ _, rfl⟩

/-- Every offset lies on a line of the text. -/
theorem position_line_mem (x : LineIndex) (r : Nat) :
    1 ≤ (x.position r).line ∧ (x.position r).line ≤ x.lineCount := by
  obtain ⟨l, -, hl, -⟩ := x.exists_line?_position r
  exact exists_lineText?_iff.mp ⟨l.text, by rw [lineText?, hl, Option.map_some]⟩

/-- Every column is at least 1 and at most one behind the bytes of the text. -/
theorem position_column_mem (x : LineIndex) (r : Nat) :
    1 ≤ (x.position r).column ∧ (x.position r).column ≤ x.byteLength + 1 := by
  obtain ⟨l, i, hl, hi, hcolumn⟩ := x.exists_line?_position r
  have hraw := length_raw_le hl
  obtain ⟨terminator, hterm⟩ := exists_raw_eq hl
  rw [hterm, List.length_append] at hraw
  omega

/-- A later place does not have an earlier line. -/
theorem position_line_le (x : LineIndex) {r r' : Nat} (h : r ≤ r') :
    (x.position r).line ≤ (x.position r').line := by
  have hline (r : Nat) : (x.position r).line =
      max 1 (x.lines.takeWhile (·.start ≤ min r x.byteLength)).length := by
    unfold position
    simp only
    split
    · next hnone =>
      rw [List.getLast?_eq_none_iff.mp hnone]
      rfl
    · next l hsome =>
      have hpos := List.length_pos_of_mem (List.mem_of_getLast? hsome)
      simp only
      omega
  have hsplit : x.lines.takeWhile (·.start ≤ min r' x.byteLength) =
      x.lines.takeWhile (·.start ≤ min r x.byteLength) ++
        (x.lines.dropWhile (·.start ≤ min r x.byteLength)).takeWhile
          (·.start ≤ min r' x.byteLength) := by
    rw [← List.takeWhile_append_of_pos, List.takeWhile_append_dropWhile]
    intro l hl
    have hle := List.all_eq_true.mp List.all_takeWhile l hl
    simp only [decide_eq_true_eq] at hle ⊢
    omega
  rw [hline, hline, hsplit, List.length_append]
  omega

/-- A leading part of a line that does not take in its line feed holds none. -/
theorem Around.feed_not_mem {x : LineIndex} {n : Nat} {l : Line} {before : List (List Char)}
    {after lead : List Char} (h : x.Around n l before after) (hlead : lead <+: l.raw)
    (hraw : lead = l.raw → '\n' ∉ l.raw) : '\n' ∉ lead := by
  obtain ⟨more, hmore⟩ := hlead
  rcases h.rest with ⟨hnot, -, -⟩ | ⟨⟨body, hbody, hline⟩, -⟩
  · rw [← hmore] at hnot
    exact fun hmem ↦ hnot (List.mem_append_left _ hmem)
  · rcases List.eq_nil_or_concat more with rfl | ⟨init, c, rfl⟩
    · rw [List.append_nil] at hmore
      rw [hmore]
      exact hraw hmore
    · rw [hline, List.concat_eq_append, ← List.append_assoc] at hmore
      have hcut : lead ++ init = body := (List.append_inj' hmore rfl).1
      rw [← hcut] at hbody
      exact fun hmem ↦ hbody (List.mem_append_left _ hmem)

/-- A leading part of a text is the lines before the one that it ends on and the start of that. -/
theorem Around.upto_eq {x : LineIndex} {n : Nat} {l : Line} {before : List (List Char)}
    {after lead upto rest : List Char} (h : x.Around n l before after) (hlead : lead <+: l.raw)
    (htext : x.text = upto ++ rest)
    (hbytes : Text.byteLength upto = l.start + Text.byteLength lead) :
    upto = before.flatten ++ lead := by
  obtain ⟨more, hmore⟩ := hlead
  have hsplit : upto ++ rest = (before.flatten ++ lead) ++ (more ++ after) := by
    rw [← htext, h.text_eq, ← hmore]
    simp
  exact Text.eq_of_byteLength_eq hsplit (by rw [hbytes, h.start, Text.byteLength_append])

/-- The line of a place is found by counting the line feeds before it. -/
theorem position_line {x : LineIndex} {before after : List Char} (h : x.text = before ++ after) :
    (x.position (Text.byteLength before)).line = before.count '\n' + 1 := by
  obtain ⟨l, lines, after', lead, har, hlead, hbytes, hraw⟩ :=
    exists_around_position ⟨before, after, h, rfl⟩
  have hfeed := har.feed_not_mem hlead hraw
  have hbefore := har.upto_eq hlead h hbytes
  have hcount : before.count '\n' = lines.length := by
    rw [hbefore, List.count_append, Text.count_feed_flatten har.terminated,
      List.count_eq_zero.mpr hfeed, Nat.add_zero]
  rw [← har.number, hcount]

/-- The line after complete ones has the number that their line feeds say. -/
theorem line?_of_complete {x : LineIndex} {before l after : List Char}
    (h : x.text = before ++ l ++ after) (hbefore : Text.Complete before)
    (hl : Text.Terminated l ∨ ('\n' ∉ l ∧ after = [])) :
    x.line? (before.count '\n' + 1) = some ⟨Text.byteLength before, l⟩ := by
  obtain ⟨hget, htake⟩ := hbefore.getElem?_splitLines hl
  rw [line?_succ, h, hget, htake]
  rfl

end FencedCode.LineIndex
