import FencedCode.LineIndex
import FencedCode.Proofs.Text.Bytes
import FencedCode.Proofs.Text.Lines

/-!
# The lines of a text by number

Line number `n` of an index is the piece number `n` of its text, placed after the pieces before it,
and consists of what it says and a terminator.
-/

namespace FencedCode

namespace Line

variable {start : Nat} {body raw : List Char}

/-- A line feed that no carriage return precedes is the whole terminator. -/
theorem text_append_feed (h : body.getLast? ≠ some '\r') :
    (⟨start, body ++ ['\n']⟩ : Line).text = body := by
  rw [← List.head?_reverse] at h
  simp only [text, List.reverse_append, List.reverse_singleton, List.singleton_append]
  cases hr : body.reverse with
  | nil => simpa using hr.symm
  | cons c cs =>
    have hc : c ≠ '\r' := by simpa [hr] using h
    split
    · next heq => simp_all
    · next heq =>
      obtain ⟨-, rfl⟩ := List.cons.inj heq
      rw [← hr, List.reverse_reverse]
    · next hne => exact absurd rfl (hne _)

/-- A carriage return before the line feed belongs to the terminator. -/
theorem text_append_return_feed : (⟨start, body ++ ['\r', '\n']⟩ : Line).text = body := by
  simp [text]

/-- A line without a line feed is all text. -/
theorem text_of_not_mem (h : '\n' ∉ raw) : (⟨start, raw⟩ : Line).text = raw := by
  have hr : '\n' ∉ raw.reverse := by simpa using h
  simp only [text]
  split
  · next heq => simp [heq] at hr
  · next heq => simp [heq] at hr
  · rfl

/-- The start of a line that is not part of its terminator is part of its text. -/
theorem text_append {lead : List Char} (start : Nat) (hfeed : '\n' ∉ lead)
    (hreturn : lead.getLast? ≠ some '\r') (hraw : Text.Terminated raw ∨ '\n' ∉ raw) :
    (⟨start, lead ++ raw⟩ : Line).text = lead ++ (⟨start, raw⟩ : Line).text := by
  rcases hraw with ⟨body, hbody, rfl⟩ | hnot
  · by_cases hlast : body.getLast? = some '\r'
    · obtain ⟨init, rfl⟩ := List.getLast?_eq_some_iff.mp hlast
      rw [List.append_assoc init, List.singleton_append, text_append_return_feed,
        ← List.append_assoc, text_append_return_feed]
    · rw [text_append_feed hlast, ← List.append_assoc, text_append_feed]
      rcases List.eq_nil_or_concat body with rfl | ⟨init, c, rfl⟩
      · rwa [List.append_nil]
      · rw [List.concat_eq_append] at hlast ⊢
        rwa [← List.append_assoc, List.getLast?_concat, ← List.getLast?_concat (l := init)]
  · rw [text_of_not_mem hnot, text_of_not_mem (by simp [hfeed, hnot])]

/-- What follows the text of a terminated line. -/
theorem raw_eq_of_terminated (start : Nat) (h : Text.Terminated raw) :
    raw = (⟨start, raw⟩ : Line).text ++ ['\n'] ∨
      raw = (⟨start, raw⟩ : Line).text ++ ['\r', '\n'] := by
  obtain ⟨body, -, rfl⟩ := h
  by_cases hbody : body.getLast? = some '\r'
  · obtain ⟨init, rfl⟩ := List.getLast?_eq_some_iff.mp hbody
    right
    rw [List.append_assoc, List.singleton_append, text_append_return_feed]
  · left
    rw [text_append_feed hbody]

/-- What a line says holds no line feed and is the start of the line. -/
theorem text_prefix (start : Nat) (h : Text.Terminated raw ∨ '\n' ∉ raw) :
    (⟨start, raw⟩ : Line).text <+: raw ∧ '\n' ∉ (⟨start, raw⟩ : Line).text := by
  rcases h with ⟨body, hbody, rfl⟩ | hnot
  · by_cases hlast : body.getLast? = some '\r'
    · obtain ⟨init, rfl⟩ := List.getLast?_eq_some_iff.mp hlast
      rw [List.append_assoc, List.singleton_append, text_append_return_feed]
      exact ⟨List.prefix_append _ _, fun hmem ↦ hbody (List.mem_append_left _ hmem)⟩
    · rw [text_append_feed hlast]
      exact ⟨List.prefix_append _ _, hbody⟩
  · rw [text_of_not_mem hnot]
    exact ⟨List.prefix_refl _, hnot⟩

end Line

/-- Placing lines keeps their number. -/
theorem length_placeLines (start : Nat) (ls : List (List Char)) :
    (placeLines start ls).length = ls.length := by
  induction ls generalizing start with
  | nil => rfl
  | cons l ls ih => simp [placeLines, ih]

/-- Lines placed one after the other start where those before them end. -/
theorem placeLines_append (start : Nat) (ks ls : List (List Char)) :
    placeLines start (ks ++ ls) =
      placeLines start ks ++ placeLines (start + Text.byteLength ks.flatten) ls := by
  induction ks generalizing start with
  | nil => simp [placeLines]
  | cons k ks ih => simp [placeLines, ih, Nat.add_assoc]

/-- Each piece starts where those before it end. -/
private theorem getElem?_placeLines (start : Nat) (ls : List (List Char)) (k : Nat) :
    (placeLines start ls)[k]? =
      ls[k]?.map fun l ↦ ⟨start + Text.byteLength (ls.take k).flatten, l⟩ := by
  induction ls generalizing start k with
  | nil => simp [placeLines]
  | cons l ls ih =>
    cases k with
    | zero => simp [placeLines]
    | succ k => simp [placeLines, ih, Nat.add_assoc]

/-- No piece starts after the end of all. -/
theorem start_le_of_mem_placeLines {start : Nat} {ls : List (List Char)} {l : Line}
    (h : l ∈ placeLines start ls) : l.start ≤ start + Text.byteLength ls.flatten := by
  obtain ⟨k, hk⟩ := List.getElem?_of_mem h
  rw [getElem?_placeLines] at hk
  obtain ⟨m, -, rfl⟩ := Option.map_eq_some_iff.mp hk
  have hcut : ls.flatten = (ls.take k).flatten ++ (ls.drop k).flatten := by
    rw [← List.flatten_append, List.take_append_drop]
  rw [hcut, Text.byteLength_append]
  exact Nat.add_le_add_left (Nat.le_add_right _ _) start

namespace LineIndex

/-- An index gives back the text it was made of. -/
@[simp] theorem ofText_text (cs : List Char) : (ofText cs).text = cs := rfl

/-- A line is a part of the text split at line feeds, with the bytes before it as its start. -/
theorem line?_succ (x : LineIndex) (k : Nat) :
    x.line? (k + 1) = (Text.splitLines x.text)[k]?.map fun raw ↦
      ⟨Text.byteLength ((Text.splitLines x.text).take k).flatten, raw⟩ := by
  simp only [line?, x.lines_eq, getElem?_placeLines, Nat.zero_add]

/-- There is one line more than there are line feeds. -/
theorem lineCount_eq (x : LineIndex) : x.lineCount = x.text.count '\n' + 1 := by
  rw [lineCount, x.lines_eq, length_placeLines, Text.length_splitLines]

/-- All lines but the last one have a byte of their own, the line feed. -/
theorem lineCount_le (x : LineIndex) : x.lineCount ≤ x.byteLength + 1 := by
  rw [lineCount_eq]
  exact Nat.succ_le_succ (Nat.le_trans List.count_le_length (Text.length_le_byteLength x.text))

/-- The number of a line is at most the number of lines. -/
theorem le_lineCount {x : LineIndex} {n : Nat} {l : Line} (h : x.line? n = some l) :
    n ≤ x.lineCount := by
  cases n with
  | zero => cases h
  | succ k => exact (List.getElem?_eq_some_iff.mp h).1

/-- The lines of a text are numbered from one on. -/
theorem exists_lineText?_iff {x : LineIndex} {n : Nat} :
    (∃ line, x.lineText? n = some line) ↔ 1 ≤ n ∧ n ≤ x.lineCount := by
  cases n with
  | zero => simp [lineText?, line?]
  | succ k =>
    simp only [lineText?, line?, Option.map_eq_some_iff, lineCount]
    constructor
    · rintro ⟨line, l, hl, -⟩
      have hlt := (List.getElem?_eq_some_iff.mp hl).1
      omega
    · rintro ⟨-, hlt⟩
      exact ⟨_, _, List.getElem?_eq_getElem (by omega), rfl⟩

/-- How a text is made up around one of its lines. -/
structure Around (x : LineIndex) (n : Nat) (l : Line) (before : List (List Char))
    (after : List Char) : Prop where
  text_eq : x.text = before.flatten ++ l.raw ++ after
  number : before.length + 1 = n
  start : l.start = Text.byteLength before.flatten
  before_eq : before = (Text.splitLines x.text).take before.length
  terminated : ∀ m ∈ before, Text.Terminated m
  rest : ('\n' ∉ l.raw ∧ after = [] ∧ Text.splitLines x.text = before ++ [l.raw]) ∨
    (Text.Terminated l.raw ∧
      Text.splitLines x.text = before ++ l.raw :: Text.splitLines after)

/-- What stands before line number `n`. -/
def textBefore (x : LineIndex) (n : Nat) : List Char :=
  ((Text.splitLines x.text).take (n - 1)).flatten

/-- The text before a line is what stands around it in front. -/
theorem Around.textBefore_eq {x : LineIndex} {n : Nat} {l : Line} {before : List (List Char)}
    {after : List Char} (h : x.Around n l before after) : x.textBefore n = before.flatten := by
  rw [textBefore, ← h.number, Nat.add_sub_cancel, ← h.before_eq]

/-- What stands before a line ends in the line before it. -/
theorem textBefore_succ {x : LineIndex} {n : Nat} {l : Line} (h : x.line? n = some l) :
    x.textBefore (n + 1) = x.textBefore n ++ l.raw := by
  cases n with
  | zero => cases h
  | succ k =>
    rw [line?_succ] at h
    obtain ⟨raw, hraw, rfl⟩ := Option.map_eq_some_iff.mp h
    rw [textBefore, textBefore, Nat.add_sub_cancel, Nat.add_sub_cancel, List.take_add_one, hraw,
      List.flatten_append]
    simp

/-- Every line of a text is preceded by terminated lines and is terminated itself unless it is the
last one. -/
theorem exists_around {x : LineIndex} {n : Nat} {l : Line} (h : x.line? n = some l) :
    ∃ before after, x.Around n l before after := by
  cases n with
  | zero => cases h
  | succ k =>
    rw [line?_succ] at h
    obtain ⟨raw, hraw, rfl⟩ := Option.map_eq_some_iff.mp h
    obtain ⟨before, after, htext, hlen, hbefore, hterm, hrest⟩ := Text.splitLines_around hraw
    refine ⟨before, after, htext, by rw [hlen], ?_, ?_, hterm, hrest⟩
    · rw [hbefore]
    · rw [hlen]
      exact hbefore

/-- A line starts behind the bytes of the text before it. -/
theorem byteLength_textBefore {x : LineIndex} {n : Nat} {l : Line} (h : x.line? n = some l) :
    Text.byteLength (x.textBefore n) = l.start := by
  obtain ⟨before, after, har⟩ := exists_around h
  rw [har.textBefore_eq, har.start]

/-- What stands before a line and a leading part of the line are a leading part of the text. -/
theorem textBefore_append_prefix {x : LineIndex} {n : Nat} {l : Line} (h : x.line? n = some l)
    {upto : List Char} (hupto : upto <+: l.raw) : x.textBefore n ++ upto <+: x.text := by
  obtain ⟨before, after, har⟩ := exists_around h
  obtain ⟨rest, hrest⟩ := hupto
  refine ⟨rest ++ after, ?_⟩
  rw [har.text_eq, har.textBefore_eq, ← hrest]
  simp

/-- The text around a line determines the line. -/
theorem Around.line?_eq {x : LineIndex} {n : Nat} {l : Line} {before : List (List Char)}
    {after : List Char} (h : x.Around n l before after) : x.line? n = some l := by
  have hget : (Text.splitLines x.text)[before.length]? = some l.raw := by
    rcases h.rest with ⟨-, -, hsplit⟩ | ⟨-, hsplit⟩
    · rw [hsplit, List.getElem?_concat_length]
    · rw [hsplit, List.getElem?_append_right (Nat.le_refl _), Nat.sub_self]
      rfl
  rw [← h.number, line?_succ, hget, ← h.before_eq, ← h.start]
  rfl

/-- A line of a text put together from lines stands between those before it and those after it. -/
theorem around_joinLines {ls : List (List Char)} (h : ∀ l ∈ ls, '\n' ∉ l) {j : Nat}
    {l : List Char} (hl : ls[j]? = some l) :
    (ofText (Text.joinLines ls)).Around (j + 1)
      ⟨Text.byteLength (Text.joinLines (ls.take j)), l ++ ['\n']⟩
      ((ls.take j).map (· ++ ['\n'])) (Text.joinLines (ls.drop (j + 1))) := by
  obtain ⟨hj, hget⟩ := List.getElem?_eq_some_iff.mp hl
  have hcut : ls = ls.take j ++ l :: ls.drop (j + 1) := by
    rw [← hget, List.getElem_cons_drop, List.take_append_drop]
  have hlen : ((ls.take j).map (· ++ ['\n'])).length = j := by
    rw [List.length_map, List.length_take, Nat.min_eq_left (Nat.le_of_lt hj)]
  have hdrop : ∀ m ∈ ls.drop (j + 1), '\n' ∉ m := fun m hm ↦ h m (List.mem_of_mem_drop hm)
  refine ⟨?_, by rw [hlen], ?_, ?_, ?_, .inr ⟨Text.terminated_append ?_, ?_⟩⟩
  · have hjoin := congrArg Text.joinLines hcut
    rw [Text.joinLines_append, Text.joinLines_cons] at hjoin
    rw [Text.flatten_map_feed, ofText_text]
    simpa using hjoin
  · rw [Text.flatten_map_feed]
  · rw [hlen, ofText_text, Text.splitLines_joinLines h, List.take_append_of_le_length,
      List.map_take]
    rw [List.length_map]
    exact Nat.le_of_lt hj
  · exact Text.terminated_of_mem_map_feed fun m hm ↦ h m (List.mem_of_mem_take hm)
  · exact h l (List.mem_of_getElem? hl)
  · have hmap := congrArg (List.map (· ++ ['\n'])) hcut
    rw [List.map_append, List.map_cons] at hmap
    rw [ofText_text, Text.splitLines_joinLines h, Text.splitLines_joinLines hdrop, hmap,
      List.append_assoc, List.cons_append]

/-- After the lines of a text put together from lines comes an empty one. -/
theorem around_joinLines_end {ls : List (List Char)} (h : ∀ l ∈ ls, '\n' ∉ l) :
    (ofText (Text.joinLines ls)).Around (ls.length + 1)
      ⟨Text.byteLength (Text.joinLines ls), []⟩ (ls.map (· ++ ['\n'])) [] := by
  have hsplit : Text.splitLines (ofText (Text.joinLines ls)).text =
      ls.map (· ++ ['\n']) ++ [[]] := Text.splitLines_joinLines h
  refine ⟨?_, by rw [List.length_map], ?_, ?_, Text.terminated_of_mem_map_feed h,
    .inl ⟨by simp, rfl, hsplit⟩⟩
  · rw [Text.flatten_map_feed]
    simp
  · rw [Text.flatten_map_feed]
  · rw [hsplit, List.take_append_of_le_length (Nat.le_refl _), List.take_length]

/-- What a line says is followed by its terminator, which only the last line has none of. -/
theorem Around.raw_eq {x : LineIndex} {n : Nat} {l : Line} {before : List (List Char)}
    {after : List Char} (h : x.Around n l before after) :
    (l.raw = l.text ∧ after = []) ∨ l.raw = l.text ++ ['\n'] ∨ l.raw = l.text ++ ['\r', '\n'] := by
  rcases h.rest with ⟨hraw, hafter, -⟩ | ⟨hterm, -⟩
  · exact .inl ⟨(Line.text_of_not_mem hraw).symm, hafter⟩
  · exact .inr (Line.raw_eq_of_terminated _ hterm)

/-- A raw line is its text with a terminator. -/
theorem exists_raw_eq {x : LineIndex} {n : Nat} {l : Line} (h : x.line? n = some l) :
    ∃ terminator, l.raw = l.text ++ terminator := by
  obtain ⟨before, after, har⟩ := exists_around h
  rcases har.raw_eq with ⟨heq, -⟩ | heq | heq
  · exact ⟨[], by rw [List.append_nil]; exact heq⟩
  · exact ⟨_, heq⟩
  · exact ⟨_, heq⟩

/-- A terminator is nothing but breaks. -/
theorem withoutBreaks_raw {x : LineIndex} {n : Nat} {l : Line} (h : x.line? n = some l) :
    Text.withoutBreaks l.raw = Text.withoutBreaks l.text := by
  obtain ⟨before, after, har⟩ := exists_around h
  rcases har.raw_eq with ⟨hraw, -⟩ | hraw | hraw
  · rw [hraw]
  all_goals
    rw [hraw, Text.withoutBreaks_append]
    exact List.append_nil _

/-- The text up to a place on a line is what stands before the line and the line up to there. -/
theorem exists_upto {x : LineIndex} {n : Nat} {l : Line} (h : x.line? n = some l) (i : Nat) :
    ∃ upto, upto <+: x.text ∧ Text.byteLength upto = l.start + Text.byteLength (l.text.take i) ∧
      Text.withoutBreaks upto =
        Text.withoutBreaks (x.textBefore n) ++ Text.withoutBreaks (l.text.take i) := by
  obtain ⟨terminator, hraw⟩ := exists_raw_eq h
  refine ⟨x.textBefore n ++ l.text.take i, textBefore_append_prefix h ?_, ?_, ?_⟩
  · rw [hraw]
    exact (List.take_prefix _ _).trans (List.prefix_append _ _)
  · rw [Text.byteLength_append, byteLength_textBefore h]
  · exact Text.withoutBreaks_append _ _

/-- A line that is not the first one is shorter than the text. -/
theorem length_text_lt {x : LineIndex} {n : Nat} {l : Line} (h : x.line? n = some l)
    (hn : 2 ≤ n) : l.text.length < x.byteLength := by
  obtain ⟨before, after, har⟩ := exists_around h
  obtain ⟨terminator, hraw⟩ := exists_raw_eq h
  have hbefore : 0 < Text.byteLength before.flatten := by
    cases before with
    | nil =>
      have hnumber := har.number
      simp at hnumber
      omega
    | cons m before =>
      have hm := har.terminated m (by simp)
      have hne := mt Text.byteLength_eq_zero.mp hm.ne_nil
      rw [List.flatten_cons, Text.byteLength_append]
      omega
  have hlen := Text.length_le_byteLength l.text
  rw [byteLength, har.text_eq, Text.byteLength_append, Text.byteLength_append, hraw,
    Text.byteLength_append]
  omega

/-- A line has no more characters than the text has bytes. -/
theorem length_raw_le {x : LineIndex} {n : Nat} {l : Line} (h : x.line? n = some l) :
    l.raw.length ≤ x.byteLength := by
  obtain ⟨before, after, har⟩ := exists_around h
  have hlen := Text.length_le_byteLength l.raw
  rw [byteLength, har.text_eq, Text.byteLength_append, Text.byteLength_append]
  omega

/-- No line holds a line feed in its text. -/
theorem not_mem_text_of_line? {x : LineIndex} {n : Nat} {l : Line} (h : x.line? n = some l) :
    '\n' ∉ l.text := by
  obtain ⟨start, raw⟩ := l
  obtain ⟨before, after, har⟩ := exists_around h
  rcases har.rest with ⟨hraw, -, -⟩ | ⟨hterm, -⟩
  · rw [Line.text_of_not_mem hraw]
    exact hraw
  · have hdrop := hterm
    obtain ⟨body, hbody, hraw⟩ := hterm
    intro hmem
    apply hbody
    rcases Line.raw_eq_of_terminated start hdrop with heq | heq
    · rwa [List.append_cancel_right (heq.symm.trans hraw)] at hmem
    · have hcut : (⟨start, raw⟩ : Line).text ++ ['\r'] = body := by
        apply (List.append_left_inj ['\n']).mp
        rw [← hraw, List.append_assoc]
        exact heq.symm
      rw [← hcut]
      exact List.mem_append_left _ hmem

/-- The text of a line holds no line feed. -/
theorem not_mem_of_lineText? {x : LineIndex} {n : Nat} {cs : List Char}
    (h : x.lineText? n = some cs) : '\n' ∉ cs := by
  obtain ⟨l, hl, rfl⟩ := Option.map_eq_some_iff.mp h
  exact not_mem_text_of_line? hl

/-- The character at a position of a text, terminators included. -/
def charAt? (x : LineIndex) (p : Position) : Option Char :=
  match p.column with
  | 0 => none
  | i + 1 => (x.line? p.line).bind fun l ↦ l.raw[i]?

/-- The character at a column is counted from the start of the raw line. -/
theorem charAt?_succ {x : LineIndex} {n : Nat} {l : Line} (h : x.line? n = some l) (i : Nat)
    (o : Option Nat) : x.charAt? ⟨n, i + 1, o⟩ = l.raw[i]? := by
  simp [charAt?, h]

end LineIndex

end FencedCode
