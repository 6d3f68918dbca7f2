import FencedCode.Proofs.LineIndex.Places

/-!
# The lines of a text as its parts

The lines of a text tile it: the first one starts where the text does, each of the others where the
one before it ends, and the last one ends with the text. Each but the last ends in the one line feed
that it holds, so there is one line more than there are line feeds.
-/

namespace FencedCode

/-- Whether lines follow each other without a gap from one byte offset up to another. -/
def Tile : Nat → List Line → Nat → Prop
  | start, [], stop => start = stop
  | start, l :: ls, stop => l.start = start ∧ Tile l.stop ls stop

private theorem tile_placeLines (start : Nat) (ls : List (List Char)) :
    Tile start (placeLines start ls) (start + Text.byteLength ls.flatten) := by
  induction ls generalizing start with
  | nil => rfl
  | cons l ls ih =>
    refine ⟨rfl, ?_⟩
    rw [List.flatten_cons, Text.byteLength_append, ← Nat.add_assoc]
    exact ih _

private theorem map_raw_placeLines (start : Nat) (ls : List (List Char)) :
    (placeLines start ls).map Line.raw = ls := by
  induction ls generalizing start with
  | nil => rfl
  | cons l ls ih => rw [placeLines, List.map_cons, ih]

/-- Whether `text` is a piece of a text without its terminator, which is a line feed at its end with
an optional carriage return before it. -/
def Text.IsWithoutTerminator (text piece : List Char) : Prop :=
  piece = text ++ ['\r', '\n'] ∨ (piece = text ++ ['\n'] ∧ text.getLast? ≠ some '\r') ∨
    (piece = text ∧ piece.getLast? ≠ some '\n')

namespace LineIndex

/-- The part of the text that a line takes up. -/
def sliceOf (x : LineIndex) (l : Line) : List Char := Text.slice l.start l.stop x.text

private theorem sliceOf_eq {x : LineIndex} {n : Nat} {l : Line} (h : x.line? n = some l) :
    x.sliceOf l = l.raw := by
  obtain ⟨before, after, har⟩ := exists_around h
  rw [sliceOf, har.text_eq, Line.stop, har.start, ← Text.byteLength_append, Text.slice_append]

private theorem sliceOf_of_mem {x : LineIndex} {l : Line} (h : l ∈ x.lines) :
    x.sliceOf l = l.raw := by
  obtain ⟨k, hk⟩ := List.getElem?_of_mem h
  exact sliceOf_eq (n := k + 1) hk

private theorem map_sliceOf (x : LineIndex) : x.lines.map x.sliceOf = Text.splitLines x.text := by
  rw [List.map_congr_left fun l hl ↦ sliceOf_of_mem hl, x.lines_eq, map_raw_placeLines]

/-- The lines are those before the last line feed and what stands after it. -/
private theorem exists_lines_eq (x : LineIndex) : ∃ init last, x.text = init.flatten ++ last ∧
    (∀ raw ∈ init, Text.Terminated raw) ∧ '\n' ∉ last ∧
      x.lines = placeLines 0 init ++ [⟨Text.byteLength init.flatten, last⟩] := by
  obtain ⟨init, last, hsplit, hinit, hlast⟩ := Text.exists_splitLines x.text
  refine ⟨init, last, ?_, hinit, hlast, ?_⟩
  · rw [← Text.flatten_splitLines x.text, hsplit, List.flatten_append, List.flatten_singleton]
  · rw [x.lines_eq, hsplit, placeLines_append, Nat.zero_add]
    rfl

/-- A text has an empty line at its end when it is empty itself or ends in a line feed. -/
private theorem lines_eq_occupied_append (x : LineIndex) : x.lines = x.occupied ++
    if x.text = [] ∨ x.text.getLast? = some '\n' then [⟨x.byteLength, []⟩] else [] := by
  obtain ⟨init, last, htext, hinit, hlast, hlines⟩ := x.exists_lines_eq
  have hplaced : (placeLines 0 init).filter (fun l ↦ !l.raw.isEmpty) = placeLines 0 init := by
    refine List.filter_eq_self.mpr fun l hl ↦ ?_
    have hraw := (hinit l.raw (map_raw_placeLines 0 init ▸ List.mem_map_of_mem hl)).ne_nil
    simpa using hraw
  rw [occupied, hlines, List.filter_append, hplaced]
  rcases List.eq_nil_or_concat last with rfl | ⟨body, c, rfl⟩
  · have hend : x.text = [] ∨ x.text.getLast? = some '\n' := by
      rw [htext, List.append_nil]
      by_cases hflat : init.flatten = []
      · exact .inl hflat
      · exact .inr (Text.Complete.getLast? ⟨init, hinit, rfl⟩ hflat)
    rw [if_pos hend, byteLength, htext, List.append_nil]
    simp
  · rw [List.concat_eq_append] at htext hlast
    have hend : ¬(x.text = [] ∨ x.text.getLast? = some '\n') := by
      rw [htext, ← List.append_assoc, List.getLast?_concat]
      rintro (hempty | hfeed)
      · simp at hempty
      · exact hlast (Option.some.inj hfeed ▸ by simp)
    rw [if_neg hend]
    simp

/-- What a line says is the line without its terminator. -/
theorem isWithoutTerminator_text {x : LineIndex} {n : Nat} {l : Line} (h : x.line? n = some l) :
    Text.IsWithoutTerminator l.text l.raw := by
  obtain ⟨before, after, har⟩ := exists_around h
  rcases har.raw_eq with ⟨hraw, -⟩ | hraw | hraw
  · refine .inr (.inr ⟨hraw, fun hfeed ↦ ?_⟩)
    exact not_mem_text_of_line? h (hraw ▸ List.mem_of_getLast? hfeed)
  · exact .inr (.inl ⟨hraw, getLast?_text_ne hraw⟩)
  · exact .inl hraw

/-- The lines of a text as its parts. -/
structure PartitionsText (x : LineIndex) : Prop where
  /-- The lines cover the text without gap or overlap. -/
  tile : Tile 0 x.lines x.byteLength
  /-- Put together they are the text. -/
  flatten_slices : (x.lines.map x.sliceOf).flatten = x.text
  /-- There is one line more than there are line feeds. -/
  lineCount_eq : x.lineCount = x.text.count '\n' + 1
  /-- Every line but the last ends in the one line feed that it holds. -/
  terminated : ∀ l ∈ x.lines.dropLast, Text.Terminated (x.sliceOf l)
  /-- The last line holds none. -/
  last : ∀ l, x.lines.getLast? = some l → '\n' ∉ x.sliceOf l
  /-- The lines but for an empty one at the end of the text are the pieces that hold text. -/
  lines_eq : x.lines = x.occupied ++
    if x.text = [] ∨ x.text.getLast? = some '\n' then [⟨x.byteLength, []⟩] else []
  /-- They are numbered from one on. -/
  exists_line?_iff : ∀ n, (∃ l, x.line? n = some l) ↔ 1 ≤ n ∧ n ≤ x.lineCount
  /-- What a line says is its part of the text without the terminator. -/
  exists_lineText? : ∀ n l, x.line? n = some l →
    ∃ text, x.lineText? n = some text ∧ Text.IsWithoutTerminator text (x.sliceOf l)

/-- The lines of every text partition it. -/
theorem partitionsText (x : LineIndex) : x.PartitionsText where
  tile := by
    have htile := tile_placeLines 0 (Text.splitLines x.text)
    rwa [Text.flatten_splitLines, Nat.zero_add, ← x.lines_eq] at htile
  flatten_slices := by rw [map_sliceOf, Text.flatten_splitLines]
  lineCount_eq := x.lineCount_eq
  terminated l hl := by
    rw [sliceOf_of_mem ((List.dropLast_sublist _).mem hl)]
    obtain ⟨init, last, -, hinit, -, hlines⟩ := x.exists_lines_eq
    rw [hlines, List.dropLast_concat] at hl
    exact hinit l.raw (map_raw_placeLines 0 init ▸ List.mem_map_of_mem hl)
  last l hl := by
    rw [sliceOf_of_mem (List.mem_of_getLast? hl)]
    obtain ⟨init, last, -, -, hlast, hlines⟩ := x.exists_lines_eq
    rw [hlines, List.getLast?_concat] at hl
    exact Option.some.inj hl ▸ hlast
  lines_eq := x.lines_eq_occupied_append
  exists_line?_iff n := by
    rw [← exists_lineText?_iff]
    simp [lineText?]
  exists_lineText? n l hl := by
    refine ⟨l.text, by rw [lineText?, hl, Option.map_some], ?_⟩
    rw [sliceOf_eq hl]
    exact isWithoutTerminator_text hl

end LineIndex

end FencedCode
