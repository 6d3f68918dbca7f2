import FencedCode.Text.Bytes
import FencedCode.Text.Lines

/-!
# Lines and their terminators

Every line of a text but the last is terminated: it ends in a line feed and holds no other one.
Lines of this shape are what a text falls into again when they are put together, so that a text may
be changed line by line.
-/

namespace FencedCode.Text

/-- Whether a piece of text is a line with its line feed. -/
def Terminated (l : List Char) : Prop := ∃ body, '\n' ∉ body ∧ l = body ++ ['\n']

/-- A line feed terminates what holds none. -/
theorem terminated_append {body : List Char} (h : '\n' ∉ body) : Terminated (body ++ ['\n']) :=
  ⟨body, h, rfl⟩

/-- So does a carriage return with a line feed. -/
theorem terminated_append_return {body : List Char} (h : '\n' ∉ body) :
    Terminated (body ++ ['\r', '\n']) :=
  ⟨body ++ ['\r'], by simp [h], by simp⟩

/-- Putting more in front of a terminated line leaves it terminated. -/
theorem Terminated.append_left {lead l : List Char} (h : Terminated l) (hlead : '\n' ∉ lead) :
    Terminated (lead ++ l) := by
  obtain ⟨body, hbody, rfl⟩ := h
  rw [← List.append_assoc]
  exact terminated_append (by simp [hlead, hbody])

/-- A terminated line is not empty. -/
theorem Terminated.ne_nil {l : List Char} (h : Terminated l) : l ≠ [] := by
  obtain ⟨body, -, rfl⟩ := h
  simp

/-- A text without its carriage returns and line feeds. -/
def withoutBreaks (cs : List Char) : List Char := cs.filter fun c ↦ c != '\r' && c != '\n'

/-- Line breaks are taken out of parts one by one. -/
@[simp] theorem withoutBreaks_append (cs ds : List Char) :
    withoutBreaks (cs ++ ds) = withoutBreaks cs ++ withoutBreaks ds := List.filter_append ..

/-- Nothing is left of line breaks alone. -/
theorem withoutBreaks_eq_nil {cs : List Char} :
    withoutBreaks cs = [] ↔ ∀ c ∈ cs, c = '\r' ∨ c = '\n' := by
  simp only [withoutBreaks, List.filter_eq_nil_iff, Bool.and_eq_true, bne_iff_ne, ne_eq]
  grind

/-- A text without a line feed is one line. -/
theorem splitLines_of_not_mem {cs : List Char} (h : '\n' ∉ cs) : splitLines cs = [cs] := by
  induction cs with
  | nil => rfl
  | cons c cs ih =>
    obtain ⟨hc, hcs⟩ := not_or.mp (mt List.mem_cons.mpr h)
    simp only [splitLines, Ne.symm hc, if_false, ih hcs]

/-- A terminated line at the start of a text is its first line. -/
theorem splitLines_append {l : List Char} (h : Terminated l) (cs : List Char) :
    splitLines (l ++ cs) = l :: splitLines cs := by
  obtain ⟨body, hbody, rfl⟩ := h
  induction body with
  | nil => simp [splitLines]
  | cons c body ih =>
    obtain ⟨hc, hbody⟩ := not_or.mp (mt List.mem_cons.mpr hbody)
    have hrest := ih hbody
    rw [List.cons_append, List.cons_append, splitLines, hrest]
    simp only [Ne.symm hc, if_false]

/-- Terminated lines at the start of a text are its first lines. -/
theorem splitLines_flatten_append {ls : List (List Char)} (h : ∀ l ∈ ls, Terminated l)
    (cs : List Char) : splitLines (ls.flatten ++ cs) = ls ++ splitLines cs := by
  induction ls with
  | nil => rfl
  | cons l ls ih =>
    obtain ⟨hl, hls⟩ := List.forall_mem_cons.mp h
    rw [List.flatten_cons, List.append_assoc, splitLines_append hl, ih hls, List.cons_append]

/-- The lines of a text are terminated ones and a last one without a line feed. -/
theorem exists_splitLines (cs : List Char) : ∃ init last, splitLines cs = init ++ [last] ∧
    (∀ l ∈ init, Terminated l) ∧ '\n' ∉ last := by
  induction cs with
  | nil => exact ⟨[], [], rfl, by simp, by simp⟩
  | cons c cs ih =>
    obtain ⟨init, last, hsplit, hinit, hlast⟩ := ih
    by_cases hc : c = '\n'
    · refine ⟨['\n'] :: init, last, ?_, ?_, hlast⟩
      · simp [splitLines, hc, hsplit]
      · exact List.forall_mem_cons.mpr ⟨⟨[], List.not_mem_nil, rfl⟩, hinit⟩
    · cases init with
      | nil =>
        refine ⟨[], c :: last, ?_, by simp, ?_⟩
        · simp [splitLines, hc, hsplit]
        · simp [Ne.symm hc, hlast]
      | cons l init =>
        obtain ⟨⟨body, hbody, rfl⟩, htail⟩ := List.forall_mem_cons.mp hinit
        refine ⟨(c :: body ++ ['\n']) :: init, last, ?_, ?_, hlast⟩
        · simp [splitLines, hc, hsplit]
        · refine List.forall_mem_cons.mpr ⟨terminated_append ?_, htail⟩
          simp [Ne.symm hc, hbody]

/-- The lines of a text around one of them: those before it are terminated; it is the last one and
holds no line feed, or it is terminated and what follows it is cut into the other lines. -/
theorem splitLines_around {cs l : List Char} {k : Nat} (h : (splitLines cs)[k]? = some l) :
    ∃ init after, cs = init.flatten ++ l ++ after ∧ init.length = k ∧
      init = (splitLines cs).take k ∧ (∀ m ∈ init, Terminated m) ∧
      (('\n' ∉ l ∧ after = [] ∧ splitLines cs = init ++ [l]) ∨
        (Terminated l ∧ splitLines cs = init ++ l :: splitLines after)) := by
  obtain ⟨lines, last, hsplit, hlines, hlast⟩ := exists_splitLines cs
  have htext : cs = lines.flatten ++ last := by
    rw [← flatten_splitLines cs, hsplit]
    simp
  rw [hsplit] at h
  rcases Nat.lt_or_ge k lines.length with hk | hk
  · rw [List.getElem?_append_left hk] at h
    obtain ⟨_, hl⟩ := List.getElem?_eq_some_iff.mp h
    have hcut : lines = lines.take k ++ l :: lines.drop (k + 1) := by
      rw [← hl, List.getElem_cons_drop, List.take_append_drop]
    refine ⟨lines.take k, (lines.drop (k + 1)).flatten ++ last, ?_, by simp; omega, ?_,
      fun m hm ↦ hlines m (List.mem_of_mem_take hm), .inr ⟨?_, ?_⟩⟩
    · rw [htext, ← List.append_assoc]
      congr 1
      rw [List.append_assoc, ← List.flatten_cons, ← List.flatten_append, ← hcut]
    · rw [hsplit, List.take_append_of_le_length (by omega)]
    · exact hlines l (List.mem_of_getElem? h)
    · rw [splitLines_flatten_append (fun m hm ↦ hlines m (List.mem_of_mem_drop hm)),
        splitLines_of_not_mem hlast, hsplit, ← List.cons_append, ← List.append_assoc, ← hcut]
  · have hk' : k - lines.length = 0 := by
      have hlt := (List.getElem?_eq_some_iff.mp h).1
      simp only [List.length_append, List.length_singleton] at hlt
      omega
    rw [List.getElem?_append_right hk, hk'] at h
    obtain rfl : last = l := by simpa using h
    obtain rfl : k = lines.length := by omega
    exact ⟨lines, [], by simpa using htext, rfl, by simp [hsplit], hlines,
      .inl ⟨hlast, rfl, hsplit⟩⟩

/-- Every place of a text but its end lies in one of its pieces. -/
theorem exists_piece {ls : List (List Char)} {r : Nat} (h : r < byteLength ls.flatten) :
    ∃ k l, ls[k]? = some l ∧ byteLength (ls.take k).flatten ≤ r ∧
      r < byteLength (ls.take k).flatten + byteLength l := by
  induction ls generalizing r with
  | nil => exact absurd h (Nat.not_lt_zero _)
  | cons l ls ih =>
    rw [List.flatten_cons, byteLength_append] at h
    rcases Nat.lt_or_ge r (byteLength l) with hr | hr
    · exact ⟨0, l, rfl, Nat.zero_le _, by simpa using hr⟩
    · obtain ⟨k, m, hm, hle, hlt⟩ := ih (r := r - byteLength l) (by omega)
      refine ⟨k + 1, m, by simpa using hm, ?_, ?_⟩
      · rw [List.take_succ_cons, List.flatten_cons, byteLength_append]
        omega
      · rw [List.take_succ_cons, List.flatten_cons, byteLength_append]
        omega

/-- Lines with a line feed each are the joined lines. -/
theorem flatten_map_feed (ls : List (List Char)) :
    (ls.map (· ++ ['\n'])).flatten = joinLines ls := by
  rw [joinLines, List.flatMap_def]

/-- Each of these lines is terminated. -/
theorem terminated_of_mem_map_feed {ls : List (List Char)} (h : ∀ l ∈ ls, '\n' ∉ l) :
    ∀ l ∈ ls.map (· ++ ['\n']), Terminated l := by
  intro l hl
  obtain ⟨m, hm, rfl⟩ := List.mem_map.mp hl
  exact terminated_append (h m hm)

/-- Changing one of the lines that a text is put together from. -/
theorem joinLines_set {ls : List (List Char)} {j : Nat} (h : j < ls.length) (l : List Char) :
    joinLines (ls.set j l) =
      joinLines (ls.take j) ++ (l ++ ['\n']) ++ joinLines (ls.drop (j + 1)) := by
  rw [List.set_eq_take_append_cons_drop, if_pos h, joinLines_append, joinLines_cons]
  simp

/-- Lines without line feeds, put together with a line feed after each, fall into the same lines and
an empty one. -/
theorem splitLines_joinLines {ls : List (List Char)} (h : ∀ l ∈ ls, '\n' ∉ l) :
    splitLines (joinLines ls) = ls.map (· ++ ['\n']) ++ [[]] := by
  rw [← flatten_map_feed, ← List.append_nil (List.flatten _),
    splitLines_flatten_append (terminated_of_mem_map_feed h), splitLines]

/-- Every line feed makes one more piece. -/
theorem length_splitFeeds (cs : List Char) : (splitFeeds cs).length = cs.count '\n' + 1 := by
  induction cs with
  | nil => rfl
  | cons c cs ih =>
    by_cases hc : c = '\n'
    · rw [splitFeeds, if_pos hc, List.length_cons, ih, hc, List.count_cons_self]
    · rw [splitFeeds, if_neg hc, List.count_cons_of_ne hc, ← ih]
      cases hsplit : splitFeeds cs with
      | nil => exact absurd hsplit (splitFeeds_ne_nil cs)
      | cons l ls => rfl

/-- The pieces of a text that is cut at its line feeds make the text again, with one line feed more
at its end. -/
theorem joinLines_splitFeeds (cs : List Char) : joinLines (splitFeeds cs) = cs ++ ['\n'] := by
  induction cs with
  | nil => rfl
  | cons c cs ih =>
    by_cases hc : c = '\n'
    · rw [splitFeeds, if_pos hc, joinLines_cons, ih, hc]
      rfl
    · rw [splitFeeds, if_neg hc]
      cases hsplit : splitFeeds cs with
      | nil => exact absurd hsplit (splitFeeds_ne_nil cs)
      | cons l ls =>
        rw [hsplit, joinLines_cons] at ih
        rw [joinLines_cons, List.cons_append, ih]
        rfl

/-- No piece of a text that is cut at its line feeds holds one. -/
theorem not_mem_of_mem_splitFeeds {cs l : List Char} (h : l ∈ splitFeeds cs) : '\n' ∉ l := by
  induction cs generalizing l with
  | nil =>
    rw [List.mem_singleton.mp h]
    simp
  | cons c cs ih =>
    by_cases hc : c = '\n'
    · rcases List.mem_cons.mp (by simpa [splitFeeds, hc] using h) with rfl | h
      · simp
      · exact ih h
    · cases hsplit : splitFeeds cs with
      | nil => exact absurd hsplit (splitFeeds_ne_nil cs)
      | cons m ms =>
        rcases List.mem_cons.mp (by simpa [splitFeeds, hc, hsplit] using h) with rfl | h
        · simpa [Ne.symm hc] using ih (l := m) (by simp [hsplit])
        · exact ih (by simp [hsplit, h])

/-- A terminated line has one line feed. -/
theorem Terminated.count_feed {l : List Char} (h : Terminated l) : l.count '\n' = 1 := by
  obtain ⟨body, hbody, rfl⟩ := h
  rw [List.count_append, List.count_eq_zero.mpr hbody, List.count_singleton_self]

/-- Terminated lines have a line feed each. -/
theorem count_feed_flatten {ls : List (List Char)} (h : ∀ l ∈ ls, Terminated l) :
    ls.flatten.count '\n' = ls.length := by
  induction ls with
  | nil => rfl
  | cons l ls ih =>
    obtain ⟨hl, hls⟩ := List.forall_mem_cons.mp h
    rw [List.flatten_cons, List.count_append, hl.count_feed, ih hls, List.length_cons,
      Nat.add_comm]

/-- Lines that are put together have a line feed each. -/
theorem count_feed_joinLines {ls : List (List Char)} (h : ∀ l ∈ ls, '\n' ∉ l) :
    (joinLines ls).count '\n' = ls.length := by
  rw [← flatten_map_feed, count_feed_flatten (terminated_of_mem_map_feed h), List.length_map]

/-- Every line feed ends a line, and one more line follows the last. -/
theorem length_splitLines (cs : List Char) : (splitLines cs).length = cs.count '\n' + 1 := by
  obtain ⟨init, last, hsplit, hinit, hlast⟩ := exists_splitLines cs
  have hcs := flatten_splitLines cs
  rw [hsplit, List.flatten_append, List.flatten_singleton] at hcs
  rw [hsplit, ← hcs, List.count_append, count_feed_flatten hinit, List.count_eq_zero.mpr hlast,
    List.length_append]
  rfl

/-- Whether a text is made of terminated lines only. -/
def Complete (cs : List Char) : Prop :=
  ∃ ls : List (List Char), (∀ l ∈ ls, Terminated l) ∧ cs = ls.flatten

/-- The empty text is complete. -/
theorem complete_nil : Complete [] := ⟨[], by simp, rfl⟩

/-- After any text a terminated line completes it. -/
theorem Terminated.complete_append {l : List Char} (h : Terminated l) (before : List Char) :
    Complete (before ++ l) := by
  obtain ⟨init, last, hsplit, hinit, hlast⟩ := exists_splitLines before
  refine ⟨init ++ [last ++ l], ?_, ?_⟩
  · intro m hm
    rcases List.mem_append.mp hm with hm | hm
    · exact hinit m hm
    · rw [List.mem_singleton.mp hm]
      exact h.append_left hlast
  · rw [← flatten_splitLines before, hsplit]
    simp

/-- Complete texts one after the other are complete. -/
theorem Complete.append {cs ds : List Char} (hcs : Complete cs) (hds : Complete ds) :
    Complete (cs ++ ds) := by
  obtain ⟨ks, hks, rfl⟩ := hcs
  obtain ⟨ls, hls, rfl⟩ := hds
  exact ⟨ks ++ ls, fun l hl ↦ (List.mem_append.mp hl).elim (hks l) (hls l),
    List.flatten_append.symm⟩

/-- A complete text that is not empty ends in a line feed. -/
theorem Complete.getLast? {cs : List Char} (h : Complete cs) (hne : cs ≠ []) :
    cs.getLast? = some '\n' := by
  obtain ⟨ls, hls, rfl⟩ := h
  rcases List.eq_nil_or_concat ls with rfl | ⟨init, l, rfl⟩
  · exact absurd rfl hne
  · obtain ⟨body, -, hl⟩ := hls l (by simp)
    rw [List.concat_eq_append, List.flatten_append, List.flatten_singleton, hl,
      ← List.append_assoc, List.getLast?_concat]

/-- A text has its terminated lines and what follows them in one way only. -/
theorem Complete.append_inj {init init' last last' : List Char} (hinit : Complete init)
    (hinit' : Complete init') (hlast : '\n' ∉ last) (hlast' : '\n' ∉ last')
    (h : init ++ last = init' ++ last') : init = init' ∧ last = last' := by
  obtain ⟨ks, hks, rfl⟩ := hinit
  obtain ⟨ls, hls, rfl⟩ := hinit'
  have hsplit := congrArg splitLines h
  rw [splitLines_flatten_append hks, splitLines_flatten_append hls, splitLines_of_not_mem hlast,
    splitLines_of_not_mem hlast'] at hsplit
  obtain ⟨rfl, heq⟩ := List.append_inj' hsplit rfl
  exact ⟨rfl, List.singleton_inj.mp heq⟩

/-- The line after complete ones is found by counting their line feeds. -/
theorem Complete.getElem?_splitLines {before l after : List Char} (h : Complete before)
    (hl : Terminated l ∨ ('\n' ∉ l ∧ after = [])) :
    (splitLines (before ++ l ++ after))[before.count '\n']? = some l ∧
      ((splitLines (before ++ l ++ after)).take (before.count '\n')).flatten = before := by
  obtain ⟨ls, hls, rfl⟩ := h
  have hsplit : ∃ rest, splitLines (l ++ after) = l :: rest := by
    rcases hl with hl | ⟨hl, rfl⟩
    · exact ⟨_, splitLines_append hl after⟩
    · exact ⟨[], by rw [List.append_nil, splitLines_of_not_mem hl]⟩
  obtain ⟨rest, hrest⟩ := hsplit
  rw [List.append_assoc, splitLines_flatten_append hls, hrest, count_feed_flatten hls]
  constructor
  · rw [List.getElem?_append_right (Nat.le_refl _), Nat.sub_self]
    rfl
  · rw [List.take_left]

/-! ## Lines without their line feeds -/

/-- The lines of a text without their line feeds; an empty piece after the last line feed is
none. -/
def lines (cs : List Char) : List (List Char) :=
  let pieces := splitFeeds cs
  if pieces.getLast? = some [] then pieces.dropLast else pieces

private theorem splitFeeds_append {body : List Char} (h : '\n' ∉ body) (cs : List Char) :
    splitFeeds (body ++ '\n' :: cs) = body :: splitFeeds cs := by
  induction body with
  | nil => simp [splitFeeds]
  | cons c body ih =>
    obtain ⟨hc, hbody⟩ := not_or.mp (mt List.mem_cons.mpr h)
    rw [List.cons_append, splitFeeds, if_neg (Ne.symm hc), ih hbody]

private theorem splitFeeds_of_not_mem {cs : List Char} (h : '\n' ∉ cs) : splitFeeds cs = [cs] := by
  induction cs with
  | nil => rfl
  | cons c cs ih =>
    obtain ⟨hc, hcs⟩ := not_or.mp (mt List.mem_cons.mpr h)
    rw [splitFeeds, if_neg (Ne.symm hc), ih hcs]

private theorem getElem?_splitFeeds_cons {c : Char} (hc : c ≠ '\n') (cs : List Char) (j : Nat) :
    (splitFeeds (c :: cs))[j]? =
      (splitFeeds cs)[j]?.map fun l ↦ if j = 0 then c :: l else l := by
  cases hsplit : splitFeeds cs with
  | nil => exact absurd hsplit (splitFeeds_ne_nil cs)
  | cons l ls =>
    rw [splitFeeds, if_neg hc, hsplit]
    cases j with
    | zero => rfl
    | succ j => simp

/-- What is put before a text is put before its first piece. -/
theorem getElem?_splitFeeds_lead {lead : List Char} (h : '\n' ∉ lead) (cs : List Char) (j : Nat) :
    (splitFeeds (lead ++ cs))[j]? =
      (splitFeeds cs)[j]?.map fun l ↦ if j = 0 then lead ++ l else l := by
  induction lead with
  | nil => simp
  | cons c lead ih =>
    obtain ⟨hc, hlead⟩ := not_or.mp (mt List.mem_cons.mpr h)
    rw [List.cons_append, getElem?_splitFeeds_cons (Ne.symm hc), ih hlead, Option.map_map]
    congr 1
    funext l
    by_cases hj : j = 0
    · simp [hj]
    · simp [hj]

/-- What is put after a text is put after its last piece. -/
theorem getElem?_splitFeeds_tail {tail : List Char} (h : '\n' ∉ tail) (cs : List Char) (j : Nat) :
    (splitFeeds (cs ++ tail))[j]? =
      (splitFeeds cs)[j]?.map fun l ↦ if j = cs.count '\n' then l ++ tail else l := by
  induction cs generalizing j with
  | nil =>
    rw [List.nil_append, splitFeeds_of_not_mem h]
    cases j with
    | zero => rfl
    | succ j => rfl
  | cons c cs ih =>
    by_cases hc : c = '\n'
    · rw [List.cons_append, splitFeeds, if_pos hc, splitFeeds, if_pos hc, hc, List.count_cons_self]
      cases j with
      | zero => simp
      | succ j => simp [ih]
    · rw [List.cons_append, getElem?_splitFeeds_cons hc, getElem?_splitFeeds_cons hc, ih,
        Option.map_map, Option.map_map, List.count_cons_of_ne hc]
      congr 1
      funext l
      by_cases hj : j = 0
      · simp [hj, apply_ite (List.cons c)]
      · simp [hj]

/-- A line with its line feed is the first of the lines. -/
theorem lines_append {body : List Char} (h : '\n' ∉ body) (cs : List Char) :
    lines (body ++ '\n' :: cs) = body :: lines cs := by
  have hne := splitFeeds_ne_nil cs
  simp only [lines, splitFeeds_append h]
  rw [List.getLast?_cons_of_ne_nil hne, List.dropLast_cons_of_ne_nil hne]
  split <;> rfl

/-- A text without a line feed is one line. -/
theorem lines_of_not_mem {cs : List Char} (h : '\n' ∉ cs) (hne : cs ≠ []) : lines cs = [cs] := by
  simp [lines, splitFeeds_of_not_mem h, hne]

end FencedCode.Text
