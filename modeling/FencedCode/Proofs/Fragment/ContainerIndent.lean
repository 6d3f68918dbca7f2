import FencedCode.Proofs.Fragment.Indent
import FencedCode.Proofs.Node.Place

/-!
# The indent of a block and the container prefix before it

A container prefix is skipped in bytes to place a node, from where its construct starts, and counted
in characters for the indent of its lines, from the start of its first line. The main statement says
that both measure one run, and when that is all that stands before a block. It is so for every node
whose construct stands behind container prefix alone, whatever the node skips on top.
-/

namespace FencedCode

open Markdown (Span)

/-- A container prefix has as many characters as a line has quote markers and blanks at its start,
and as many bytes as these characters. The indent of a block is no more than what stands before it
on its line, and is all of it exactly when the line reaches up to the block and has nothing but
quote markers and blanks there; the opening line freed of such an indent is what it says from the
block on. -/
theorem ContainerPrefix.measures_agree :
    (∀ line : List Char,
      (∀ k, k ≤ length line ↔
        k ≤ line.length ∧ ∀ c ∈ line.take k, c = marker ∨ Text.isBlank c = true) ∧
      byteLength line = Text.byteLength (line.take (length line))) ∧
    ∀ (x : LineIndex) (n : Node), 1 < n.range.start.column →
      let before := n.range.start.column - 1
      containerIndent x n ≤ before ∧
      (containerIndent x n = before ↔ ∃ opening,
        x.lineText? n.range.start.line = some opening ∧ before ≤ opening.length ∧
          ∀ c ∈ opening.take before, c = marker ∨ Text.isBlank c = true) ∧
      (containerIndent x n = before → ∃ opening,
        x.lineText? n.range.start.line = some opening ∧
          dropIndent (containerIndent x n) opening = (before, opening.drop before)) := by
  simp only [← isMember_iff]
  constructor
  · intro line
    exact ⟨fun k ↦ le_length_iff, by rw [byteLength_eq, take_length_of]⟩
  · intro x n hcolumn
    cases hline : x.lineText? n.range.start.line with
    | none =>
      have hne : n.range.start.column - 1 ≠ 0 := Nat.sub_ne_zero_of_lt hcolumn
      rw [containerIndent_of_none hline]
      exact ⟨Nat.zero_le _, ⟨fun h ↦ absurd h.symm hne, nofun⟩, fun h ↦ absurd h.symm hne⟩
    | some opening =>
      have hindent := containerIndent_eq hline
      refine ⟨?_, ?_, fun hall ↦ ⟨opening, rfl, ?_⟩⟩
      · rw [hindent]
        exact Nat.min_le_left _ _
      · rw [containerIndent_eq_iff hline]
        simp
      · have hle : n.range.start.column - 1 ≤ length opening := by
          rw [← hall, hindent]
          exact Nat.min_le_right _ _
        rw [hall, dropIndent, Nat.min_eq_left hle]

/-- A wide blank between a quote marker and a fence counts as one character and three bytes. -/
theorem ContainerPrefix.measures_agree_wide :
    let line := ">\u3000```js".toList
    let x := LineIndex.ofText "x\n>\u3000```js\n".toList
    let n : Node := { kind := .code, range := ⟨⟨2, 3, some 6⟩, ⟨2, 8, some 11⟩⟩ }
    1 < n.range.start.column ∧ length line = 2 ∧ byteLength line = 4 ∧
      byteLength line = Text.byteLength (line.take (length line)) ∧
      x.lineText? n.range.start.line = some line ∧
      containerIndent x n = n.range.start.column - 1 ∧
      dropIndent (containerIndent x n) line = (2, "```js".toList) := by
  intro line x n
  have hcolumn : 1 < n.range.start.column := by decide
  have hindent : containerIndent x n = n.range.start.column - 1 := by decide
  have hline : x.lineText? n.range.start.line = some line := by decide
  obtain ⟨hmeasures, hblocks⟩ := measures_agree
  obtain ⟨-, -, hopening⟩ := hblocks x n hcolumn
  obtain ⟨opening, hopening, hdrop⟩ := hopening hindent
  obtain rfl := Option.some.inj (hopening.symm.trans hline)
  exact ⟨hcolumn, by decide, by decide, (hmeasures _).2, hline, hindent, hdrop⟩

/-- What a line says is followed by blanks only, those of its terminator. -/
private theorem LineIndex.Around.exists_blanks {x : LineIndex} {n : Nat} {l : Line}
    {before : List (List Char)} {after : List Char} (h : x.Around n l before after) :
    ∃ terminator, l.raw = l.text ++ terminator ∧
      ∀ c ∈ terminator, ContainerPrefix.isMember c = true := by
  rcases h.raw_eq with ⟨hraw, -⟩ | hraw | hraw
  · exact ⟨[], by rw [List.append_nil]; exact hraw, by simp⟩
  · exact ⟨_, hraw, List.forall_mem_singleton.mpr rfl⟩
  · exact ⟨_, hraw, List.forall_mem_cons.mpr ⟨rfl, List.forall_mem_singleton.mpr rfl⟩⟩

/-- The indent of a block is all that stands before it on its line exactly when that is container
prefix throughout, even where the block starts inside the terminator of the line. -/
theorem containerIndent_eq_iff_of_position {x : LineIndex} {n : Node} {init lead after : List Char}
    (htext : x.text = init ++ lead ++ after) (hinit : Text.Complete init) (hlead : '\n' ∉ lead)
    (hstart : n.range.start = x.position (Text.byteLength (init ++ lead))) :
    containerIndent x n = n.range.start.column - 1 ↔
      ∀ c ∈ lead, ContainerPrefix.isMember c = true := by
  obtain ⟨l, before, after', har, hprefix, hcolumn⟩ :=
    LineIndex.exists_position_of_complete htext hinit hlead
  obtain ⟨terminator, hraw, hblanks⟩ := har.exists_blanks
  rw [← hstart] at har hcolumn
  have hline : x.lineText? n.range.start.line = some l.text := by
    rw [LineIndex.lineText?, har.line?_eq, Option.map_some]
  -- a block that starts behind what its line says has blanks of the terminator before it as well
  have hcut : lead = l.text.take (min lead.length l.text.length) ++
      terminator.take (lead.length - l.text.length) := by
    rw [← List.take_eq_take_min, ← List.take_append, ← hraw]
    exact List.prefix_iff_eq_take.mp hprefix
  have htail : ∀ c ∈ terminator.take (lead.length - l.text.length),
      ContainerPrefix.isMember c = true := fun c hc ↦ hblanks c (List.mem_of_mem_take hc)
  rw [containerIndent_eq_iff hline, hcolumn, Nat.add_sub_cancel,
    and_iff_right (Nat.min_le_right _ _)]
  conv_rhs => rw [hcut, List.forall_mem_append]
  exact (and_iff_left htail).symm

/-- The node of a construct has all that stands before it on its line as its indent exactly when the
construct has only container prefix before it there: what the node skips is more of that. -/
theorem NodeKind.containerIndent_place_iff {x : LineIndex} {k : NodeKind} {s : Span}
    (h : s.EndsBetween x.text) {init lead after : List Char}
    (htext : x.text = init ++ lead ++ after) (hinit : Text.Complete init) (hlead : '\n' ∉ lead)
    (hs : Text.byteLength (init ++ lead) = min s.start (Text.byteLength x.text)) {n : Node}
    (hn : n.range = k.place x s) :
    containerIndent x n = n.range.start.column - 1 ↔
      ∀ c ∈ lead, ContainerPrefix.isMember c = true := by
  obtain ⟨before, skipped, kept, cut, rest, hdivides, -, hspan⟩ := k.exists_divides h
  have hall : x.text = before ++ (skipped ++ kept ++ cut ++ rest) := by
    rw [hdivides.text_eq]
    simp
  obtain rfl := Text.eq_of_byteLength_eq (hall.symm.trans htext) (hdivides.start_eq.trans hs.symm)
  have hskipped : '\n' ∉ skipped := fun hmem ↦ (hdivides.isMember _ hmem).1 rfl
  have hstart : n.range.start = x.position (Text.byteLength (init ++ (lead ++ skipped))) := by
    rw [hn, place, hspan, ← List.append_assoc]
  have htext' : x.text = init ++ (lead ++ skipped) ++ (kept ++ cut ++ rest) := by
    rw [hall]
    simp
  rw [containerIndent_eq_iff_of_position htext' hinit (by simp [hlead, hskipped]) hstart,
    List.forall_mem_append]
  exact and_iff_left fun c hc ↦ (hdivides.isMember c hc).2

end FencedCode
