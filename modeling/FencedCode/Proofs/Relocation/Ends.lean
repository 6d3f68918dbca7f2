import FencedCode.Document
import FencedCode.Proofs.Relocation.Outcomes

/-!
# The ends of relocated diagnostics

A diagnostic with a line and a column for its end has the end's place in the document after it was
moved, or no end when there is none. One that gives only a line or only a column for its end keeps
what it gives, which is a line or a column of the source still. The main statement is that this is
the one way for something of the source to stay in a diagnostic that was moved.
-/

namespace FencedCode

/-- Whether a diagnostic gives a line for its end but no column, or a column but no line. -/
def Diagnostic.HasPartialEnd (d : Diagnostic) : Prop := d.endLine.isSome ≠ d.endColumn.isSome

instance (d : Diagnostic) : Decidable d.HasPartialEnd := inferInstanceAs (Decidable (_ ≠ _))

/-- The end of a diagnostic is absent, given in part, or full. -/
private theorem Diagnostic.end_cases (d : Diagnostic) :
    (¬d.HasPartialEnd ∧ d.endLine = none ∧ d.endColumn = none) ∨
      (d.HasPartialEnd ∧ (d.endLine = none ∨ d.endColumn = none)) ∨
        ¬d.HasPartialEnd ∧ ∃ line column, d.endLine = some line ∧ d.endColumn = some column := by
  unfold HasPartialEnd
  cases d.endLine <;> cases d.endColumn <;> simp

namespace FragmentMap

/-- Whether a diagnostic that was moved has an end of the document: none, or the place of the end
that it had. -/
def EndsInHost (m : FragmentMap) (d d' : Diagnostic) : Prop :=
  (d'.endLine = none ∧ d'.endColumn = none) ∨
    ∃ line column p, d.endLine = some line ∧ d.endColumn = some column ∧
      m.hostPosition? ⟨line, word (column + 1), none⟩ = some p ∧
        d'.endLine = some p.line ∧ d'.endColumn = some (p.column - 1)

/-- What a diagnostic is moved to is what `Moves` says of it. -/
theorem moves_of_moveDiagnostic? {m : FragmentMap} {d d' : Diagnostic}
    (h : m.moveDiagnostic? d = some d') : m.Moves d d' := by
  obtain ⟨start, hstart, -⟩ := Option.map_eq_some_iff.mp h
  obtain ⟨d'', hd'', hmoves⟩ := exists_moves hstart
  rwa [Option.some.inj (h.symm.trans hd'')]

namespace MovesEnd

variable {m : FragmentMap} {d : Diagnostic} {endLine endColumn : Option Nat}

/-- A part of an end stays as it is, and so does the lack of an end. -/
theorem eq_of_missing (h : m.MovesEnd d endLine endColumn)
    (hmissing : d.endLine = none ∨ d.endColumn = none) :
    endLine = d.endLine ∧ endColumn = d.endColumn := by
  cases h with
  | missing => exact ⟨rfl, rfl⟩
  | dropped hline hcolumn => simp [hline, hcolumn] at hmissing
  | moved hline hcolumn => simp [hline, hcolumn] at hmissing

/-- A full end becomes its place in the document. -/
theorem eq_of_full (h : m.MovesEnd d endLine endColumn) {line column : Nat}
    (hline : d.endLine = some line) (hcolumn : d.endColumn = some column) :
    endLine = (m.hostPosition? ⟨line, word (column + 1), none⟩).map (·.line) ∧
      endColumn = (m.hostPosition? ⟨line, word (column + 1), none⟩).map (·.column - 1) := by
  cases h with
  | missing hmissing => simp [hline, hcolumn] at hmissing
  | dropped hline' hcolumn' hplace =>
    obtain rfl := Option.some.inj (hline.symm.trans hline')
    obtain rfl := Option.some.inj (hcolumn.symm.trans hcolumn')
    simp [hplace]
  | moved hline' hcolumn' hplace =>
    obtain rfl := Option.some.inj (hline.symm.trans hline')
    obtain rfl := Option.some.inj (hcolumn.symm.trans hcolumn')
    simp [hplace]

end MovesEnd

/-- The end of a diagnostic that was moved is one of the document unless only a part of an end was
given, and that part stays as it was. A full end is moved like the start, and dropped when it has no
place in the document. -/
theorem endsInHost_iff {m : FragmentMap} {d d' : Diagnostic} (h : m.moveDiagnostic? d = some d') :
    (m.EndsInHost d d' ↔ ¬d.HasPartialEnd) ∧
      (d.HasPartialEnd → d'.endLine = d.endLine ∧ d'.endColumn = d.endColumn) ∧
      ∀ line column, d.endLine = some line → d.endColumn = some column →
        d'.endLine = (m.hostPosition? ⟨line, word (column + 1), none⟩).map (·.line) ∧
          d'.endColumn = (m.hostPosition? ⟨line, word (column + 1), none⟩).map (·.column - 1) := by
  have hstop := (moves_of_moveDiagnostic? h).stop
  rcases d.end_cases with ⟨hd, hline, hcolumn⟩ | ⟨hd, hmissing⟩ | ⟨hd, line, column, hline, hcolumn⟩
  · obtain ⟨hline', hcolumn'⟩ := hstop.eq_of_missing (.inl hline)
    refine ⟨iff_of_true (.inl ⟨hline'.trans hline, hcolumn'.trans hcolumn⟩) hd, fun h ↦ absurd h hd,
      fun _ _ ↦ hstop.eq_of_full⟩
  · obtain ⟨hline', hcolumn'⟩ := hstop.eq_of_missing hmissing
    refine ⟨iff_of_false ?_ (not_not_intro hd), fun _ ↦ ⟨hline', hcolumn'⟩,
      fun _ _ ↦ hstop.eq_of_full⟩
    -- what is left of the end was given with it, and the other part was not
    rintro (⟨hline, hcolumn⟩ | ⟨line, column, -, hline, hcolumn, -⟩)
    · simp [Diagnostic.HasPartialEnd, ← hline', ← hcolumn', hline, hcolumn] at hd
    · simp [hline, hcolumn] at hmissing
  · obtain ⟨hline', hcolumn'⟩ := hstop.eq_of_full hline hcolumn
    refine ⟨iff_of_true ?_ hd, fun h ↦ absurd h hd, fun _ _ ↦ hstop.eq_of_full⟩
    cases hplace : m.hostPosition? ⟨line, word (column + 1), none⟩ with
    | none =>
      rw [hplace] at hline' hcolumn'
      exact .inl ⟨hline', hcolumn'⟩
    | some p =>
      rw [hplace] at hline' hcolumn'
      exact .inr ⟨line, column, p, hline, hcolumn, hplace, hline', hcolumn'⟩

end FragmentMap

namespace Document

/-- A diagnostic over both lines of a quoted block ends on a quoted line of the document. -/
theorem endsInHost_quoted :
    let d : Diagnostic := { line := 1, column := 0, endLine := some 2, endColumn := some 1 }
    let d' : Diagnostic := { line := 2, column := 2, endLine := some 3, endColumn := some 3 }
    ∃ b ∈ ((ofText "> ```js\n> a\n> b\n> ```\n".toList).extract {} "doc.md").blocks,
      b.map.moveDiagnostic? d = some d' ∧ b.map.EndsInHost d d' := by
  intro d d'
  have htest : ((ofText "> ```js\n> a\n> b\n> ```\n".toList).extract {} "doc.md").blocks.any
      (fun b ↦ b.map.moveDiagnostic? d = some d') = true := by
    decide +kernel
  obtain ⟨b, hb, hmoved⟩ := List.any_eq_true.mp htest
  have hd := of_decide_eq_true hmoved
  exact ⟨b, hb, hd, (FragmentMap.endsInHost_iff hd).1.mpr (by decide)⟩

/-- Whether every diagnostic about a fragment of a document has an end of the document after it was
moved. -/
def EndsMove (text : List Char) : Prop :=
  ∀ o name, ∀ b ∈ ((ofText text).extract o name).blocks, ∀ d d',
    b.map.moveDiagnostic? d = some d' → b.map.EndsInHost d d'

/-- A diagnostic that gives only the line of its end keeps it, and so ends above its start. -/
theorem not_endsMove : ¬EndsMove "\n```js\na\n```\n".toList := by
  intro hmove
  have htest : ((ofText "\n```js\na\n```\n".toList).extract {} "doc.md").blocks.any
      (fun b ↦ b.map.moveDiagnostic? { line := 1, column := 0, endLine := some 1 } =
        some { line := 3, column := 0, endLine := some 1 }) = true := by
    decide +kernel
  obtain ⟨b, hb, hmoved⟩ := List.any_eq_true.mp htest
  rcases hmove _ _ b hb _ _ (of_decide_eq_true hmoved) with
    ⟨hline, -⟩ | ⟨line, column, p, -, hcolumn, -⟩
  · cases hline
  · cases hcolumn

end Document

end FencedCode
