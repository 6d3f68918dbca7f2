import FencedCode.Proofs.LineIndex.Offsets
import Mathlib.Order.Bounds.Basic

/-!
# Places of a text

A place is a byte offset that a position can have: one between two characters, but not between the
carriage return and the line feed of a terminator. Positions and places are the same in reading
order, and an offset that is no place is taken for the next one on its line.
-/

namespace FencedCode

namespace Text

/-- Whether a byte offset lies between the carriage return and the line feed of a terminator. -/
def InsideTerminator (cs : List Char) (n : Nat) : Prop :=
  ∃ before after, cs = before ++ ['\r'] ++ '\n' :: after ∧ byteLength (before ++ ['\r']) = n

/-- Whether a byte offset lies between two characters of a text, or at one of its ends, and does not
divide a terminator. -/
structure IsPlace (cs : List Char) (n : Nat) : Prop where
  isBoundary : IsBoundary cs n
  not_insideTerminator : ¬InsideTerminator cs n

/-- An offset inside a terminator divides the text in one way. -/
theorem InsideTerminator.exists_eq {before after : List Char}
    (h : InsideTerminator (before ++ after) (byteLength before)) :
    ∃ init rest, before = init ++ ['\r'] ∧ after = '\n' :: rest := by
  obtain ⟨init, rest, htext, hbytes⟩ := h
  obtain rfl := eq_of_byteLength_eq htext hbytes.symm
  exact ⟨init, rest, rfl, List.append_cancel_left htext⟩

end Text

namespace LineIndex

variable {x : LineIndex} {n : Nat} {l : Line}

/-! ## Characters before an offset -/

/-- No fewer characters start before a later offset. -/
theorem charsBefore_mono {o o' : Nat} (h : o ≤ o') (cs : List Char) :
    charsBefore o cs ≤ charsBefore o' cs := by
  induction cs generalizing o o' with
  | nil => exact Nat.le_refl _
  | cons c cs ih =>
    rw [charsBefore, charsBefore]
    by_cases ho : 0 < o
    · rw [if_pos ho, if_pos (by omega)]
      apply Nat.succ_le_succ
      exact ih (by omega)
    · rw [if_neg ho]
      exact Nat.zero_le _

/-- The characters that start before an offset reach it. -/
private theorem le_byteLength_take_charsBefore {o : Nat} {cs : List Char} (h : o ≤ Text.byteLength cs) :
    o ≤ Text.byteLength (cs.take (charsBefore o cs)) := by
  induction cs generalizing o with
  | nil => exact h
  | cons c cs ih =>
    rw [Text.byteLength_cons] at h
    rw [charsBefore]
    by_cases ho : 0 < o
    · have hrest := ih (o := o - c.utf8Size) (by omega)
      rw [if_pos ho, List.take_succ_cons, Text.byteLength_cons]
      omega
    · omega

/-- The characters that start before a byte offset end at the next place between characters. -/
theorem isLeast_charsBefore {o : Nat} {cs : List Char} (h : o ≤ Text.byteLength cs) :
    IsLeast {r | Text.IsBoundary cs r ∧ o ≤ r} (Text.byteLength (cs.take (charsBefore o cs))) := by
  constructor
  · exact ⟨⟨_, _, (List.take_append_drop _ cs).symm, rfl⟩, le_byteLength_take_charsBefore h⟩
  · rintro r ⟨⟨before, after, rfl, rfl⟩, hle⟩
    have hcount := charsBefore_mono hle (before ++ after)
    rw [charsBefore_append] at hcount
    rw [List.take_append_of_le_length hcount]
    exact Text.byteLength_le_of_prefix (List.take_prefix _ _)

/-! ## The line of an offset -/

/-- Where a line ends the next one starts. -/
private theorem start_next {next : Line} (h : x.line? n = some l) (hnext : x.line? (n + 1) = some next) :
    next.start = l.stop := by
  rw [← byteLength_textBefore hnext, textBefore_succ h, Text.byteLength_append,
    byteLength_textBefore h]
  rfl

/-- A line with a line feed is not the last one. -/
private theorem Around.exists_next {before : List (List Char)} {after : List Char}
    (h : x.Around n l before after) (hl : Text.Terminated l.raw) :
    ∃ next, x.line? (n + 1) = some next := by
  have hcount : x.lineCount = before.length + 1 + after.count '\n' + 1 := by
    rw [lineCount_eq, h.text_eq, List.count_append, List.count_append,
      Text.count_feed_flatten h.terminated, hl.count_feed]
  have hnumber := h.number
  obtain ⟨line, hline⟩ := exists_lineText?_iff.mpr (show 1 ≤ n + 1 ∧ n + 1 ≤ x.lineCount by omega)
  obtain ⟨next, hnext, -⟩ := Option.map_eq_some_iff.mp hline
  exact ⟨next, hnext⟩

/-- Whether a byte offset lies on line number `n`: it is not before the line, and when there is a
next line it is before that. -/
structure LiesOn (x : LineIndex) (r n : Nat) (l : Line) : Prop where
  line_eq : x.line? n = some l
  start_le : l.start ≤ r
  lt_next : ∀ next, x.line? (n + 1) = some next → r < next.start

/-- The line after one that has no line feed is missing. -/
private theorem Around.line?_next {before : List (List Char)} {after : List Char}
    (h : x.Around n l before after) (hl : '\n' ∉ l.raw) : x.line? (n + 1) = none := by
  cases hnext : x.line? (n + 1) with
  | none => rfl
  | some next =>
    have hle := le_lineCount hnext
    have hnumber := h.number
    rcases h.rest with ⟨-, hafter, -⟩ | ⟨⟨body, -, hraw⟩, -⟩
    · rw [lineCount_eq, h.text_eq, hafter, List.append_nil, List.count_append,
        Text.count_feed_flatten h.terminated, List.count_eq_zero.mpr hl] at hle
      omega
    · exact absurd (hraw ▸ by simp) hl

/-- Every offset of a text lies on a line. -/
theorem exists_liesOn {r : Nat} (hr : r ≤ x.byteLength) : ∃ n l, x.LiesOn r n l := by
  obtain ⟨n, l, before, after, h, hstart, hin⟩ := exists_around_of_le hr
  refine ⟨n, l, h.line?_eq, hstart, fun next hnext ↦ ?_⟩
  rcases hin with hlt | ⟨-, hraw, -⟩
  · rw [start_next h.line?_eq hnext, Line.stop]
    omega
  · rw [h.line?_next hraw] at hnext
    cases hnext

/-- The end of what a line says lies on the line, and so do all offsets from its start on. -/
theorem liesOn_of_le {r : Nat} (h : x.line? n = some l) (hstart : l.start ≤ r)
    (hstop : r ≤ l.start + Text.byteLength l.text) : x.LiesOn r n l := by
  refine ⟨h, hstart, fun next hnext ↦ ?_⟩
  obtain ⟨before, after, har⟩ := exists_around h
  have hbytes : Text.byteLength l.text < Text.byteLength l.raw := by
    rcases har.raw_eq with ⟨hraw, -⟩ | hraw | hraw
    · have hnone := har.line?_next (hraw ▸ not_mem_text_of_line? h)
      rw [hnone] at hnext
      cases hnext
    all_goals
      rw [hraw, Text.byteLength_append]
      exact Nat.lt_add_of_pos_right (by decide)
  rw [start_next h hnext, Line.stop]
  omega

namespace LiesOn

variable {r : Nat}

/-- An offset lies in the line that it lies on, or after the last line at the end of the text. -/
private theorem lt_or_eq (h : x.LiesOn r n l) (hr : r ≤ x.byteLength) {before : List (List Char)}
    {after : List Char} (har : x.Around n l before after) :
    r - l.start < Text.byteLength l.raw ∨
      (after = [] ∧ '\n' ∉ l.raw ∧ r - l.start = Text.byteLength l.raw) := by
  have hstart := h.start_le
  rcases har.rest with ⟨hraw, hafter, -⟩ | ⟨hterm, -⟩
  · rw [byteLength, har.text_eq, hafter, List.append_nil, Text.byteLength_append, ← har.start] at hr
    by_cases hlt : r - l.start < Text.byteLength l.raw
    · exact .inl hlt
    · exact .inr ⟨hafter, hraw, by omega⟩
  · left
    obtain ⟨next, hnext⟩ := har.exists_next hterm
    have hlt := h.lt_next next hnext
    rw [start_next h.line_eq hnext, Line.stop] at hlt
    omega

/-- The position of an offset is on its line, behind the characters that start before it. -/
theorem position_eq (h : x.LiesOn r n l) (hr : r ≤ x.byteLength) :
    x.position r = ⟨n, charsBefore (r - l.start) l.text + 1, some r⟩ := by
  obtain ⟨before, after, har⟩ := exists_around h.line_eq
  have hposition := har.position_eq (h.lt_or_eq hr har)
  rwa [Nat.add_sub_cancel' h.start_le] at hposition

/-- The offset of its position is that of the end of these characters. -/
theorem offset?_position (h : x.LiesOn r n l) (hr : r ≤ x.byteLength) :
    x.offset? (x.position r) = some (l.start +
      Text.byteLength (l.text.take (charsBefore (r - l.start) l.text))) := by
  rw [h.position_eq hr]
  exact offset?_eq h.line_eq (charsBefore_le_length _ _) _

end LiesOn

/-- The position behind terminated lines and the start of another one is on that, behind the
characters that the start has before the terminator. -/
theorem exists_position_of_complete {init lead after : List Char}
    (htext : x.text = init ++ lead ++ after) (hinit : Text.Complete init) (hlead : '\n' ∉ lead) :
    ∃ l before after',
      x.Around (x.position (Text.byteLength (init ++ lead))).line l before after' ∧ lead <+: l.raw ∧
        (x.position (Text.byteLength (init ++ lead))).column = min lead.length l.text.length + 1 := by
  have hplace : Text.IsBoundary x.text (Text.byteLength (init ++ lead)) := ⟨_, _, htext, rfl⟩
  obtain ⟨l, before, after', lead', har, hprefix, hbytes, hraw⟩ := exists_around_position hplace
  obtain ⟨-, rfl⟩ := hinit.append_inj ⟨before, har.terminated, rfl⟩ hlead
    (har.feed_not_mem hprefix hraw) (har.upto_eq hprefix htext hbytes)
  refine ⟨l, before, after', har, hprefix, ?_⟩
  obtain ⟨n, l', hlies⟩ := exists_liesOn hplace.le
  have hposition := hlies.position_eq hplace.le
  have hl := har.line?_eq
  rw [hposition, hlies.line_eq] at hl
  obtain rfl := Option.some.inj hl
  obtain ⟨terminator, hterm⟩ := exists_raw_eq hlies.line_eq
  have hcount := charsBefore_take hterm lead.length
  rw [← List.prefix_iff_eq_take.mp hprefix] at hcount
  rw [hposition, hbytes, Nat.add_sub_cancel_left, hcount]

/-! ## Places and positions -/

private theorem offset?_eq_some_iff {p : Position} {r : Nat} : x.offset? p = some r ↔
    ∃ l i, x.line? p.line = some l ∧ p.column = i + 1 ∧ i ≤ l.text.length ∧
      r = l.start + Text.byteLength (l.text.take i) := by
  constructor
  · intro h
    unfold offset? at h
    split at h
    · next l i hl hcolumn =>
      by_cases hi : i ≤ l.text.length
      · rw [if_pos hi] at h
        exact ⟨l, i, hl, hcolumn, hi, (Option.some.inj h).symm⟩
      · rw [if_neg hi] at h
        cases h
    · cases h
  · rintro ⟨l, i, hl, hcolumn, hi, rfl⟩
    simp only [offset?, hl, hcolumn, hi, if_true]

/-- The positions on a line, at most one past its last character, have an offset. -/
theorem exists_offset?_iff {p : Position} : (∃ r, x.offset? p = some r) ↔
    ∃ line, x.lineText? p.line = some line ∧ 1 ≤ p.column ∧ p.column ≤ line.length + 1 := by
  constructor
  · rintro ⟨r, hr⟩
    obtain ⟨l, i, hl, hcolumn, hi, -⟩ := offset?_eq_some_iff.mp hr
    exact ⟨l.text, by rw [lineText?, hl, Option.map_some], by omega, by omega⟩
  · rintro ⟨line, hline, hcolumn, hle⟩
    obtain ⟨l, hl, rfl⟩ := Option.map_eq_some_iff.mp hline
    obtain ⟨i, hi⟩ := Nat.exists_eq_add_of_le' hcolumn
    exact ⟨_, offset?_eq_some_iff.mpr ⟨l, i, hl, hi, by omega, rfl⟩⟩

/-- A column up to one behind the text of a line has an offset. -/
theorem exists_offset?_of_lineText? {c : Nat} {line : List Char} (h : x.lineText? n = some line)
    (hc : 1 ≤ c) (hlength : c ≤ line.length + 1) (o : Option Nat) :
    ∃ r, x.offset? ⟨n, c, o⟩ = some r :=
  exists_offset?_iff.mpr ⟨line, h, hc, hlength⟩

/-- The position of an offset has one. -/
theorem exists_offset?_position (x : LineIndex) (r : Nat) :
    ∃ s, x.offset? (x.position r) = some s := by
  obtain ⟨l, i, hl, hi, hcolumn⟩ := x.exists_line?_position r
  exact ⟨_, offset?_eq_some_iff.mpr ⟨l, i, hl, hcolumn, hi, rfl⟩⟩

/-- A line feed alone is a terminator only where no carriage return precedes it. -/
theorem getLast?_text_ne {l : Line} (h : l.raw = l.text ++ ['\n']) :
    l.text.getLast? ≠ some '\r' := by
  obtain ⟨start, raw⟩ := l
  intro hlast
  obtain ⟨init, hinit⟩ := List.getLast?_eq_some_iff.mp hlast
  have hraw : raw = init ++ ['\r', '\n'] := by
    rw [hinit, List.append_assoc] at h
    exact h
  have htext : (⟨start, raw⟩ : Line).text = init := by
    rw [hraw]
    exact Line.text_append_return_feed
  rw [htext] at hinit
  simp at hinit

/-- There is a place behind every leading part of what a line says. -/
theorem Around.isPlace {before : List (List Char)} {after : List Char}
    (h : x.Around n l before after) {lead : List Char} (hlead : lead <+: l.text) :
    Text.IsPlace x.text (l.start + Text.byteLength lead) := by
  obtain ⟨rest, hrest⟩ := hlead
  obtain ⟨terminator, hraw⟩ := exists_raw_eq h.line?_eq
  have hcut : l.raw = lead ++ (rest ++ terminator) := by rw [hraw, ← hrest, List.append_assoc]
  refine ⟨h.isBoundary hcut, fun hinside ↦ ?_⟩
  have htext : x.text = before.flatten ++ lead ++ (rest ++ (terminator ++ after)) := by
    rw [h.text_eq, hcut]
    simp
  rw [htext, h.start, ← Text.byteLength_append] at hinside
  obtain ⟨init, tail, hinit, htail⟩ := hinside.exists_eq
  -- a line feed does not follow before the end of what the line says
  have hnil : rest = [] := by
    cases rest with
    | nil => rfl
    | cons c rest =>
      obtain ⟨rfl, -⟩ := List.cons.inj htail
      exact absurd (hrest ▸ by simp) (not_mem_text_of_line? h.line?_eq)
  rw [hnil, List.append_nil] at hrest
  rw [hnil, List.nil_append] at htail
  rw [hrest] at hinit
  have hreturn : (before.flatten ++ l.text).getLast? = some '\r' := by
    rw [hinit, List.getLast?_concat]
  rcases h.raw_eq with ⟨hwhole, hafter⟩ | hfeed | hboth
  · have hterminator : terminator = [] := List.append_right_eq_self.mp (hraw.symm.trans hwhole)
    rw [hterminator, hafter] at htail
    cases htail
  · rw [List.getLast?_append] at hreturn
    cases hlast : l.text.getLast? with
    | some c =>
      rw [hlast, Option.some_or] at hreturn
      exact getLast?_text_ne hfeed (hlast.trans hreturn)
    | none =>
      -- the lines before end in line feeds
      rw [hlast, Option.none_or] at hreturn
      have hne : before.flatten ≠ [] := by
        intro hempty
        rw [hempty] at hreturn
        cases hreturn
      have hcomplete : Text.Complete before.flatten := ⟨before, h.terminated, rfl⟩
      rw [hcomplete.getLast? hne] at hreturn
      cases hreturn
  · have hterminator : terminator = ['\r', '\n'] := List.append_cancel_left (hraw.symm.trans hboth)
    rw [hterminator] at htail
    cases htail

/-- The offset of a position is a place. -/
theorem isPlace_of_offset? {p : Position} {r : Nat} (h : x.offset? p = some r) :
    Text.IsPlace x.text r := by
  obtain ⟨l, i, hl, -, -, rfl⟩ := offset?_eq_some_iff.mp h
  obtain ⟨before, after, har⟩ := exists_around hl
  exact har.isPlace (List.take_prefix _ _)

/-- A place on a line divides what the line says in two. -/
private theorem LiesOn.exists_prefix {r : Nat} (h : x.LiesOn r n l) (hr : Text.IsPlace x.text r) :
    ∃ lead, lead <+: l.text ∧ r = l.start + Text.byteLength lead := by
  obtain ⟨before, after, har⟩ := exists_around h.line_eq
  have hin := h.lt_or_eq hr.isBoundary.le har
  have hstart := h.start_le
  obtain ⟨lead, hlead, hbytes⟩ := har.exists_of_isBoundary hstart (by omega) hr.isBoundary
  refine ⟨lead, ?_, hbytes⟩
  -- a place behind the line feed is on the next line
  have hne : '\n' ∈ l.raw → lead ≠ l.raw := by
    rintro hfeed rfl
    rcases hin with hlt | ⟨-, hraw, -⟩
    · omega
    · exact hraw hfeed
  rcases har.raw_eq with ⟨hraw, -⟩ | hraw | hraw
  · rwa [← hraw]
  · rw [hraw] at hlead hne
    exact (List.prefix_concat_iff.mp hlead).resolve_left (hne (by simp))
  · rw [show ['\r', '\n'] = ['\r'] ++ ['\n'] from rfl, ← List.append_assoc] at hraw
    rw [hraw] at hlead hne
    have hreturn := (List.prefix_concat_iff.mp hlead).resolve_left (hne (by simp))
    refine (List.prefix_concat_iff.mp hreturn).resolve_left fun heq ↦ ?_
    apply hr.not_insideTerminator
    refine ⟨before.flatten ++ l.text, after, ?_, ?_⟩
    · rw [har.text_eq, hraw]
      simp
    · rw [hbytes, har.start, heq, List.append_assoc, Text.byteLength_append before.flatten]

/-- Places are the offsets that the conversion to a position and back leaves as they are. -/
theorem offset?_position_eq_self_iff {r : Nat} :
    x.offset? (x.position r) = some r ↔ Text.IsPlace x.text r := by
  constructor
  · exact isPlace_of_offset?
  · intro hr
    obtain ⟨n, l, h⟩ := exists_liesOn hr.isBoundary.le
    obtain ⟨lead, ⟨rest, hrest⟩, hbytes⟩ := h.exists_prefix hr
    rw [h.offset?_position hr.isBoundary.le, hbytes, Nat.add_sub_cancel_left, ← hrest,
      charsBefore_append, List.take_left]

/-- The offset of a position has that position. -/
theorem position_of_offset? {p : Position} {r : Nat} (h : x.offset? p = some r) :
    x.position r = ⟨p.line, p.column, some r⟩ := by
  have hr := (isPlace_of_offset? h).isBoundary.le
  obtain ⟨l, i, hl, hcolumn, hi, rfl⟩ := offset?_eq_some_iff.mp h
  have hbytes := Text.byteLength_le_of_prefix (List.take_prefix i l.text)
  have hlies := liesOn_of_le hl (Nat.le_add_right _ _) (Nat.add_le_add_left hbytes l.start)
  rw [hlies.position_eq hr, Nat.add_sub_cancel_left,
    charsBefore_take (List.append_nil l.text).symm, Nat.min_eq_left hi, hcolumn]

/-- In what a line says, the next place between characters of the text is the next one of the
line. -/
theorem Around.isLeast_charsBefore {before : List (List Char)} {after : List Char}
    (h : x.Around n l before after) {r : Nat} (hstart : l.start ≤ r)
    (hstop : r - l.start ≤ Text.byteLength l.text) :
    IsLeast {s | Text.IsBoundary x.text s ∧ r ≤ s}
      (l.start + Text.byteLength (l.text.take (charsBefore (r - l.start) l.text))) := by
  obtain ⟨hboundary, hleast⟩ := LineIndex.isLeast_charsBefore hstop
  obtain ⟨terminator, hraw⟩ := exists_raw_eq h.line?_eq
  have hbytes := Text.byteLength_append l.text terminator
  rw [← hraw] at hbytes
  constructor
  · have hcut : l.raw = l.text.take (charsBefore (r - l.start) l.text) ++
        (l.text.drop (charsBefore (r - l.start) l.text) ++ terminator) := by
      rw [← List.append_assoc, List.take_append_drop]
      exact hraw
    have hle := hboundary.2
    exact ⟨h.isBoundary hcut, by omega⟩
  · rintro s ⟨hs, hle⟩
    by_cases hin : s ≤ l.start + Text.byteLength l.text
    · obtain ⟨lead, ⟨rest, hrest⟩, rfl⟩ := h.exists_of_isBoundary (by omega) (by omega) hs
      obtain ⟨more, hmore⟩ := Text.prefix_of_byteLength_le (hrest.trans hraw) (by omega)
      apply Nat.add_le_add_left
      exact hleast ⟨⟨lead, more, hmore.symm, rfl⟩, by omega⟩
    · have htake := Text.byteLength_le_of_prefix
        (List.take_prefix (charsBefore (r - l.start) l.text) l.text)
      omega

/-- An offset is taken for the next place between characters, but for no later one than the end of
what its line says. -/
private theorem LiesOn.exists_isLeast {r : Nat} (h : x.LiesOn r n l) (hr : r ≤ x.byteLength) :
    ∃ next, IsLeast {s | Text.IsBoundary x.text s ∧ r ≤ s} next ∧
      x.offset? (x.position r) = some (min next (l.start + Text.byteLength l.text)) := by
  rw [h.offset?_position hr]
  have hstart := h.start_le
  by_cases hin : r - l.start ≤ Text.byteLength l.text
  · obtain ⟨before, after, har⟩ := exists_around h.line_eq
    have hle := Text.byteLength_le_of_prefix
      (List.take_prefix (charsBefore (r - l.start) l.text) l.text)
    refine ⟨_, har.isLeast_charsBefore hstart hin, ?_⟩
    rw [Nat.min_eq_left (Nat.add_le_add_left hle _)]
  · -- the line says no more at the offset
    have hleast := LineIndex.isLeast_charsBefore hr
    have hle := hleast.1.2
    have hall : charsBefore (r - l.start) l.text = l.text.length :=
      charsBefore_of_le (by omega)
    refine ⟨_, hleast, ?_⟩
    rw [hall, List.take_length, Nat.min_eq_right (by omega)]

/-! ## Order -/

/-- A later offset does not have an earlier position. -/
theorem position_mono {r r' : Nat} (h : r ≤ r') : x.position r ≤ x.position r' := by
  have hline := x.position_line_le h
  rw [Position.le_def]
  by_cases hlt : (x.position r).line < (x.position r').line
  · exact .inl hlt
  · right
    refine ⟨by omega, ?_⟩
    have hr : min r x.byteLength ≤ x.byteLength := Nat.min_le_right _ _
    have hr' : min r' x.byteLength ≤ x.byteLength := Nat.min_le_right _ _
    obtain ⟨n, l, hlies⟩ := exists_liesOn hr
    obtain ⟨n', l', hlies'⟩ := exists_liesOn hr'
    have hposition := hlies.position_eq hr
    have hposition' := hlies'.position_eq hr'
    rw [position_min] at hposition hposition'
    have hsame : n = n' := by
      rw [hposition, hposition'] at hline hlt
      simp only at hline hlt
      omega
    subst hsame
    obtain rfl : l = l' := Option.some.inj (hlies.line_eq.symm.trans hlies'.line_eq)
    rw [hposition, hposition']
    apply Nat.succ_le_succ
    exact charsBefore_mono (by omega) l.text

/-- Positions are in the order of their offsets. -/
theorem lt_iff_of_offset? {p p' : Position} {r r' : Nat} (h : x.offset? p = some r)
    (h' : x.offset? p' = some r') : p < p' ↔ r < r' := by
  have hposition := position_of_offset? h
  have hposition' := position_of_offset? h'
  constructor
  · intro hlt
    by_contra hge
    have hle := x.position_mono (Nat.not_lt.mp hge)
    simp only [hposition, hposition', Position.le_def] at hle
    rw [Position.lt_def] at hlt
    omega
  · intro hlt
    have hle := x.position_mono hlt.le
    simp only [hposition, hposition', Position.le_def] at hle
    rw [Position.lt_def]
    by_contra hnot
    -- the same line and column have one offset
    have hsame : x.offset? p = x.offset? p' := by
      simp only [offset?]
      rw [show p.line = p'.line by omega, show p.column = p'.column by omega]
    rw [h, h', Option.some.injEq] at hsame
    omega

/-- Positions that have offsets are in the order of these. -/
theorem le_iff_of_offset? {p p' : Position} {r r' : Nat} (h : x.offset? p = some r)
    (h' : x.offset? p' = some r') : p ≤ p' ↔ r ≤ r' := by
  rw [← Position.not_lt, ← Nat.not_lt, lt_iff_of_offset? h' h]

/-- What converting between byte offsets and positions keeps. -/
structure ConvertsInOrder (x : LineIndex) : Prop where
  /-- The positions on a line of the text, at most one past its last character, have an offset, and
  no others do. -/
  exists_offset?_iff : ∀ p, (∃ r, x.offset? p = some r) ↔
    (1 ≤ p.line ∧ p.line ≤ x.lineCount) ∧ ∃ line, x.lineText? p.line = some line ∧
      1 ≤ p.column ∧ p.column ≤ line.length + 1
  /-- And that offset has the position. -/
  position_eq : ∀ p r, x.offset? p = some r → x.position r = ⟨p.line, p.column, some r⟩
  /-- An offset is taken for the next one between characters, but for none behind what its line
  says. -/
  offset?_eq : ∀ r ≤ x.byteLength, ∃ n l next, x.LiesOn r n l ∧ (x.position r).line = n ∧
    IsLeast {s | Text.IsBoundary x.text s ∧ r ≤ s} next ∧
      x.offset? (x.position r) = some (min next (l.start + Text.byteLength l.text))
  /-- It is taken for itself exactly when it is between characters and not inside a terminator. -/
  offset?_eq_self_iff : ∀ r, x.offset? (x.position r) = some r ↔
    Text.IsBoundary x.text r ∧ ¬Text.InsideTerminator x.text r
  /-- An offset behind the text is taken for the end. -/
  position_of_le : ∀ r, x.byteLength ≤ r → x.position r = x.position x.byteLength
  position_le : ∀ r r', r ≤ r' → x.position r ≤ x.position r'
  lt_iff : ∀ p p' r r', x.offset? p = some r → x.offset? p' = some r' → (p < p' ↔ r < r')

/-- Offsets and positions are converted to each other in order, whatever the text is. -/
theorem convertsInOrder (x : LineIndex) : x.ConvertsInOrder := by
  constructor
  · intro p
    rw [exists_offset?_iff]
    constructor
    · rintro ⟨line, hline, hcolumn⟩
      exact ⟨exists_lineText?_iff.mp ⟨line, hline⟩, line, hline, hcolumn⟩
    · rintro ⟨-, hline⟩
      exact hline
  · intro p r
    exact position_of_offset?
  · intro r hr
    obtain ⟨n, l, hlies⟩ := exists_liesOn hr
    obtain ⟨next, hnext, hoffset⟩ := hlies.exists_isLeast hr
    exact ⟨n, l, next, hlies, by rw [hlies.position_eq hr], hnext, hoffset⟩
  · intro r
    rw [offset?_position_eq_self_iff]
    exact ⟨fun h ↦ ⟨h.isBoundary, h.not_insideTerminator⟩, fun h ↦ ⟨h.1, h.2⟩⟩
  · intro r hr
    rw [← x.position_min r, Nat.min_eq_right hr]
  · intro r r'
    exact position_mono
  · intro p p' r r'
    exact lt_iff_of_offset?

end LineIndex

end FencedCode
