import FencedCode.Proofs.LineIndex.Offsets

/-!
# A text with one line changed

A range of bytes of a line divides the line's text in three. Putting another terminated line in the
place of one leaves all other lines of a text as they are.
-/

namespace FencedCode.LineIndex

private theorem lineText?_succ (x : LineIndex) (k : Nat) :
    x.lineText? (k + 1) = (Text.splitLines x.text)[k]?.map fun raw ↦ (⟨0, raw⟩ : Line).text := by
  rw [lineText?, line?_succ, Option.map_map]
  rfl

/-- Whether the bytes from `start` up to `stop` are some of line number `n`, from one place between
characters to another. The end of the line's text is such a place. -/
structure OnLine (x : LineIndex) (n start stop : Nat) : Prop where
  in_line : ∃ l, x.line? n = some l ∧ l.start ≤ start ∧ stop ≤ l.start + Text.byteLength l.text
  isRange : Text.IsRange x.text start stop

variable {x : LineIndex} {n : Nat} {l : Line} {before : List (List Char)} {after raw : List Char}

/-- A range of bytes of a line divides the line's text in three. -/
theorem Around.exists_of_onLine (h : x.Around n l before after) {start stop : Nat}
    (hr : x.OnLine n start stop) : ∃ lead mid rest, l.text = lead ++ mid ++ rest ∧
      start = l.start + Text.byteLength lead ∧ stop = l.start + Text.byteLength (lead ++ mid) := by
  obtain ⟨l', hl', hstart, hstop⟩ := hr.in_line
  obtain rfl : l = l' := Option.some.inj (h.line?_eq.symm.trans hl')
  have hle := hr.isRange.le
  obtain ⟨terminator, hraw⟩ := exists_raw_eq h.line?_eq
  have hcut {upto : List Char} (hupto : upto <+: l.raw)
      (hbytes : Text.byteLength upto ≤ Text.byteLength l.text) : upto <+: l.text := by
    obtain ⟨rest, hrest⟩ := hupto
    exact Text.prefix_of_byteLength_le (hrest.trans hraw) hbytes
  have hlen : Text.byteLength l.text ≤ Text.byteLength l.raw := by
    rw [hraw, Text.byteLength_append]
    exact Nat.le_add_right _ _
  obtain ⟨lead, hlead, rfl⟩ := h.exists_of_isBoundary hstart (by omega)
    hr.isRange.isBoundary_start
  obtain ⟨upto, hupto, rfl⟩ := h.exists_of_isBoundary (by omega) (by omega)
    hr.isRange.isBoundary_stop
  obtain ⟨rest, hrest⟩ := hcut hupto (by omega)
  obtain ⟨rest', hrest'⟩ := hcut hlead (by omega)
  obtain ⟨mid, rfl⟩ := Text.prefix_of_byteLength_le (hrest'.trans hrest.symm) (by omega)
  exact ⟨lead, mid, rest, hrest.symm, rfl, rfl⟩

/-- A part of a line's text takes up a range of bytes of the line. -/
theorem Around.onLine (h : x.Around n l before after) {lead mid rest : List Char}
    (htext : l.text = lead ++ mid ++ rest) :
    x.OnLine n (l.start + Text.byteLength lead) (l.start + Text.byteLength (lead ++ mid)) := by
  obtain ⟨terminator, hraw⟩ := exists_raw_eq h.line?_eq
  refine ⟨⟨l, h.line?_eq, Nat.le_add_right _ _, ?_⟩, ?_, ?_, ?_⟩
  · rw [htext, Text.byteLength_append (lead ++ mid)]
    omega
  · rw [Text.byteLength_append]
    omega
  · have hcut : l.raw = lead ++ (mid ++ rest ++ terminator) := by
      rw [hraw, htext]
      simp
    exact h.isBoundary hcut
  · have hcut : l.raw = lead ++ mid ++ (rest ++ terminator) := by
      rw [hraw, htext]
      simp
    exact h.isBoundary hcut

/-- Replacing bytes of a line changes what stands between the lines before it and those after. -/
theorem Around.replaceBytes_eq (h : x.Around n l before after) {lead mid rest : List Char}
    (hraw : l.raw = lead ++ mid ++ rest) (new : List Char) :
    Text.replaceBytes (l.start + Text.byteLength lead) (l.start + Text.byteLength (lead ++ mid)) new
        x.text = before.flatten ++ (lead ++ new ++ rest) ++ after := by
  have hreplace := Text.replaceBytes_append (before.flatten ++ lead) mid new (rest ++ after)
  rw [List.append_assoc before.flatten, Text.byteLength_append, Text.byteLength_append,
    ← h.start] at hreplace
  rw [h.text_eq, hraw]
  simpa using hreplace

private theorem Around.splitLines_eq (h : x.Around n l before after) (hl : Text.Terminated l.raw) :
    Text.splitLines x.text = before ++ l.raw :: Text.splitLines after := by
  rcases h.rest with ⟨hfeed, -, -⟩ | ⟨-, hsplit⟩
  · obtain ⟨body, -, hraw⟩ := hl
    simp [hraw] at hfeed
  · exact hsplit

/-- A terminated line in the place of another stands between the same lines. -/
theorem Around.change (h : x.Around n l before after) (hraw : Text.Terminated raw) :
    (ofText (before.flatten ++ raw ++ after)).Around n ⟨l.start, raw⟩ before after := by
  have hsplit : Text.splitLines (ofText (before.flatten ++ raw ++ after)).text =
      before ++ raw :: Text.splitLines after := by
    rw [ofText_text, List.append_assoc, Text.splitLines_flatten_append h.terminated,
      Text.splitLines_append hraw]
  refine ⟨rfl, h.number, h.start, ?_, h.terminated, .inr ⟨hraw, hsplit⟩⟩
  rw [hsplit, List.take_left]

/-- The other lines of a text stay as they are when one is changed. -/
theorem Around.lineText?_change (h : x.Around n l before after) (hl : Text.Terminated l.raw)
    (hraw : Text.Terminated raw) {m : Nat} (hm : m ≠ n) :
    (ofText (before.flatten ++ raw ++ after)).lineText? m = x.lineText? m := by
  have hsplit := h.splitLines_eq hl
  have hsplit' := (h.change hraw).splitLines_eq hraw
  cases m with
  | zero => rfl
  | succ k =>
    rw [lineText?_succ, lineText?_succ, hsplit, hsplit']
    congr 1
    have hk : k ≠ before.length := by
      have hnumber := h.number
      omega
    rcases Nat.lt_or_gt_of_ne hk with hlt | hgt
    · rw [List.getElem?_append_left hlt, List.getElem?_append_left hlt]
    · obtain ⟨j, rfl⟩ := Nat.exists_eq_add_of_lt hgt
      rw [List.getElem?_append_right (by omega), List.getElem?_append_right (by omega),
        show before.length + j + 1 - before.length = j + 1 by omega, List.getElem?_cons_succ,
        List.getElem?_cons_succ]

/-- A line before another one is terminated. -/
theorem Around.terminated_of_lt (h : x.Around n l before after) {m : Nat} {cs : List Char}
    (hm : x.lineText? m = some cs) (hlt : n < m) : Text.Terminated l.raw := by
  rcases h.rest with ⟨-, -, hsplit⟩ | ⟨hterm, -⟩
  · obtain ⟨k, rfl⟩ := Nat.exists_eq_add_of_lt hlt
    have hlen : k + n ≥ (Text.splitLines x.text).length := by
      rw [hsplit, List.length_append, List.length_singleton, h.number]
      omega
    rw [show n + k + 1 = k + n + 1 by omega, lineText?_succ, List.getElem?_eq_none hlen] at hm
    cases hm
  · exact hterm

end FencedCode.LineIndex
