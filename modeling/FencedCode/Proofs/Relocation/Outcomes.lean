import FencedCode.Proofs.PositionMap.Lookup
import FencedCode.Proofs.Registry.Entries
import FencedCode.Proofs.Relocation.Fixes

/-!
# What relocation makes of diagnostics

A reading of relocation that says of each diagnostic on its own whether it is dropped and what it
becomes, and of a list of batches that the outcomes follow each other. The main statement is that
relocation yields these outcomes, unless the batches cannot be attributed to the fragments.
-/

namespace FencedCode

/-- Every rule but two is one that a fragment can meet. -/
theorem Diagnostic.appliesToFragments_iff (d : Diagnostic) : d.appliesToFragments = true ↔
    ¬(d.rule = some "eol-last" ∨ d.rule = some "unicode-bom") := by
  cases h : d.rule with
  | none => simp [appliesToFragments, h]
  | some rule => simp [appliesToFragments, h, wholeFileRules]

namespace FragmentMap

/-- Whether a diagnostic is dropped: its rule is one that no fragment can meet, or its start has no
place in the document. Columns of diagnostics count from zero, those of positions from one. -/
def Drops (m : FragmentMap) (d : Diagnostic) : Prop :=
  d.rule = some "eol-last" ∨ d.rule = some "unicode-bom" ∨
    m.hostPosition? ⟨d.line, word (d.column + 1), none⟩ = none

/-- Whether a diagnostic with an end leaves a line of the document: the end has no place there, or
one on another line. -/
def LeavesLine (m : FragmentMap) (d : Diagnostic) (line : Nat) : Prop :=
  ∃ stopLine stopColumn, d.endLine = some stopLine ∧ d.endColumn = some stopColumn ∧
    ∀ stop, m.hostPosition? ⟨stopLine, word (stopColumn + 1), none⟩ = some stop → stop.line ≠ line

/-- What becomes of a fix: unless its diagnostic leaves the line, it is kept when both of its ends
have a place in the document in the right order. -/
def MovesFix (m : FragmentMap) (leaves : Prop) (fix fix' : Option Fix) : Prop :=
  ∀ g, fix' = some g ↔ ∃ f, fix = some f ∧ m.hostOffset? f.start = some g.start ∧
    m.hostOffset? f.stop = some g.stop ∧ g.start ≤ g.stop ∧ g.text = f.text ∧ ¬leaves

/-- What becomes of the end of a diagnostic: one that lacks its line or its column stays as it is,
and a full one is moved, or dropped when it has no place in the document. -/
inductive MovesEnd (m : FragmentMap) (d : Diagnostic) : Option Nat → Option Nat → Prop
  | missing (h : d.endLine = none ∨ d.endColumn = none) : MovesEnd m d d.endLine d.endColumn
  | dropped {line column : Nat} (hline : d.endLine = some line)
      (hcolumn : d.endColumn = some column)
      (h : m.hostPosition? ⟨line, word (column + 1), none⟩ = none) : MovesEnd m d none none
  | moved {line column line' column' : Nat} (hline : d.endLine = some line)
      (hcolumn : d.endColumn = some column)
      (h : m.hostPosition? ⟨line, word (column + 1), none⟩ = some ⟨line', column' + 1, none⟩) :
      MovesEnd m d (some line') (some column')

/-- What becomes of a diagnostic that is not dropped: it stands where its start has its place, and
only its end and its fixes change besides. -/
structure Moves (m : FragmentMap) (d d' : Diagnostic) : Prop where
  place : m.hostPosition? ⟨d.line, word (d.column + 1), none⟩ = some ⟨d'.line, d'.column + 1, none⟩
  rule : d'.rule = d.rule
  message : d'.message = d.message
  severity : d'.severity = d.severity
  stop : m.MovesEnd d d'.endLine d'.endColumn
  fix : m.MovesFix (m.LeavesLine d d'.line) d.fix d'.fix
  suggestions : List.Forall₂ (fun s s' ↦ s'.description = s.description ∧
    m.MovesFix (m.LeavesLine d d'.line) s.fix s'.fix) d.suggestions d'.suggestions

/-- Positions of a document that a map leads to are bare, and their columns are counted from one. -/
theorem hostPosition?_eq_some {m : FragmentMap} {p q : Position} (h : m.hostPosition? p = some q) :
    q = ⟨q.line, q.column - 1 + 1, none⟩ := by
  obtain ⟨⟨g, o⟩, -, rfl⟩ := Option.map_eq_some_iff.mp h
  dsimp only
  rw [Nat.sub_add_cancel (one_le_shiftColumn _ _ _)]

/-- A fix is put through the map unless its diagnostic leaves the line. -/
theorem movesFix_bind (m : FragmentMap) {leaves : Prop} {oneLine : Bool}
    (h : oneLine = true ↔ ¬leaves) (fix : Option Fix) :
    m.MovesFix leaves fix (fix.bind fun f ↦ if oneLine then m.moveFix? f else none) := by
  intro g
  cases fix with
  | none => simp
  | some f =>
    cases oneLine with
    | true =>
      have hstays : ¬leaves := h.mp rfl
      simp [moveFix?_eq_some_iff, hstays]
    | false =>
      have hleaves : leaves := by simpa using h
      simp [hleaves]

/-- Where a fix moves to is determined. -/
theorem MovesFix.unique {m : FragmentMap} {leaves : Prop} {fix fix₁ fix₂ : Option Fix}
    (h₁ : m.MovesFix leaves fix fix₁) (h₂ : m.MovesFix leaves fix fix₂) : fix₁ = fix₂ :=
  Option.ext fun g ↦ (h₁ g).trans (h₂ g).symm

/-- Where an end moves to is determined. -/
theorem MovesEnd.unique {m : FragmentMap} {d : Diagnostic}
    {line₁ column₁ line₂ column₂ : Option Nat}
    (h₁ : m.MovesEnd d line₁ column₁) (h₂ : m.MovesEnd d line₂ column₂) :
    line₁ = line₂ ∧ column₁ = column₂ := by
  -- the cases exclude each other by what they say of the end and its place
  cases h₁ <;> cases h₂ <;> simp_all

/-- A diagnostic that is not dropped becomes one other diagnostic. -/
theorem Moves.unique {m : FragmentMap} {d d₁ d₂ : Diagnostic} (h₁ : m.Moves d d₁)
    (h₂ : m.Moves d d₂) : d₁ = d₂ := by
  have hplace := h₁.place.symm.trans h₂.place
  simp only [Option.some.injEq, Position.mk.injEq, Nat.add_right_cancel_iff, and_true] at hplace
  obtain ⟨hline, hcolumn⟩ := hplace
  obtain ⟨hendLine, hendColumn⟩ := h₁.stop.unique h₂.stop
  have hfix := h₂.fix
  have hsuggestions := h₂.suggestions
  rw [← hline] at hfix hsuggestions
  have hunique : d₁.suggestions = d₂.suggestions := by
    refine List.right_unique_forall₂' ?_ h₁.suggestions hsuggestions
    rintro s ⟨description₁, fix₁⟩ ⟨description₂, fix₂⟩ ⟨hdescription₁, hfix₁⟩ ⟨hdescription₂, hfix₂⟩
    rw [Suggestion.mk.injEq]
    exact ⟨hdescription₁.trans hdescription₂.symm, hfix₁.unique hfix₂⟩
  rw [show d₁ = ⟨d₁.rule, d₁.message, d₁.severity, d₁.line, d₁.column, d₁.endLine, d₁.endColumn,
      d₁.fix, d₁.suggestions⟩ from rfl, h₁.rule, h₁.message, h₁.severity, hline, hcolumn, hendLine,
    hendColumn, h₁.fix.unique hfix, hunique, ← h₂.rule, ← h₂.message, ← h₂.severity]

/-- A diagnostic whose fixes are put through the map moves, when its end does. -/
private theorem moves_moveFixes {m : FragmentMap} {d : Diagnostic} {start : Position} {oneLine : Bool}
    {stopLine stopColumn : Option Nat}
    (hstart : m.hostPosition? ⟨d.line, word (d.column + 1), none⟩ = some start)
    (honeLine : oneLine = true ↔ ¬m.LeavesLine d start.line)
    (hstop : m.MovesEnd d stopLine stopColumn) :
    m.Moves d (m.moveFixes oneLine { d with
      line := start.line, column := start.column - 1, endLine := stopLine,
      endColumn := stopColumn }) := by
  rw [moveFixes_eq]
  constructor
  · rw [hstart]
    exact congrArg some (hostPosition?_eq_some hstart)
  · rfl
  · rfl
  · rfl
  · exact hstop
  · exact m.movesFix_bind honeLine d.fix
  · apply List.forall₂_map_right_iff.mpr
    rw [List.forall₂_same]
    exact fun s _ ↦ ⟨rfl, m.movesFix_bind honeLine s.fix⟩

private theorem leavesLine_iff {m : FragmentMap} {d : Diagnostic} {stopLine stopColumn : Nat}
    (hline : d.endLine = some stopLine) (hcolumn : d.endColumn = some stopColumn) (line : Nat) :
    m.LeavesLine d line ↔
      ∀ stop, m.hostPosition? ⟨stopLine, word (stopColumn + 1), none⟩ = some stop →
        stop.line ≠ line := by
  simp [LeavesLine, hline, hcolumn]

/-- A diagnostic whose start has a place is moved there. -/
theorem exists_moves {m : FragmentMap} {d : Diagnostic} {start : Position}
    (hstart : m.hostPosition? ⟨d.line, word (d.column + 1), none⟩ = some start) :
    ∃ d', m.moveDiagnostic? d = some d' ∧ m.Moves d d' := by
  rw [moveDiagnostic?, place?, hstart, Option.map_some]
  refine ⟨_, rfl, ?_⟩
  dsimp only
  split
  · next line column hline hcolumn =>
    have hleaves := leavesLine_iff (m := m) hline hcolumn start.line
    cases hplace : m.place? line column with
    | none =>
      rw [place?] at hplace
      refine moves_moveFixes hstart ?_ (.dropped hline hcolumn hplace)
      simp [hleaves, hplace]
    | some stop =>
      rw [place?] at hplace
      have hbare := hplace.trans (congrArg some (hostPosition?_eq_some hplace))
      refine moves_moveFixes hstart ?_ (.moved hline hcolumn hbare)
      simp [hleaves, hplace]
  · next hmissing =>
    refine moves_moveFixes hstart ?_ (.missing ?_)
    · simp only [LeavesLine, true_iff]
      rintro ⟨line, column, hline, hcolumn, -⟩
      exact hmissing line column hline hcolumn
    · cases hline : d.endLine with
      | none => exact .inl rfl
      | some line =>
        cases hcolumn : d.endColumn with
        | none => exact .inr rfl
        | some column => exact (hmissing line column hline hcolumn).elim

/-- What becomes of a diagnostic, none when it is dropped. -/
def outcome? (m : FragmentMap) (d : Diagnostic) : Option Diagnostic :=
  if d.appliesToFragments then m.moveDiagnostic? d else none

private theorem moveBatch_eq (m : FragmentMap) (batch : List Diagnostic) :
    m.moveBatch batch = batch.filterMap m.outcome? := by
  rw [moveBatch, List.filterMap_filter]
  rfl

/-- A diagnostic is dropped, or not and moved. -/
theorem outcome?_cases (m : FragmentMap) (d : Diagnostic) :
    (m.outcome? d = none ∧ m.Drops d) ∨
      ∃ d', m.outcome? d = some d' ∧ ¬m.Drops d ∧ m.Moves d d' := by
  have happlies := d.appliesToFragments_iff
  rw [outcome?, Drops, ← or_assoc]
  by_cases hrule : d.rule = some "eol-last" ∨ d.rule = some "unicode-bom"
  · have hnot : ¬d.appliesToFragments = true := fun h ↦ happlies.mp h hrule
    rw [if_neg hnot]
    exact .inl ⟨rfl, .inl hrule⟩
  · rw [if_pos (happlies.mpr hrule)]
    cases hstart : m.hostPosition? ⟨d.line, word (d.column + 1), none⟩ with
    | none =>
      left
      exact ⟨by rw [moveDiagnostic?, place?, hstart]; rfl, .inr rfl⟩
    | some start =>
      right
      obtain ⟨d', hd', hmoves⟩ := exists_moves hstart
      exact ⟨d', hd', by simp [hrule], hmoves⟩

end FragmentMap

/-- What becomes of diagnostics, each given with the map of its fragment: those that are not dropped
are moved, and keep their order. -/
inductive Relocated : List (FragmentMap × Diagnostic) → List Diagnostic → Prop
  | nil : Relocated [] []
  | dropped {m d ds out} (h : m.Drops d) (hrest : Relocated ds out) :
      Relocated ((m, d) :: ds) out
  | moved {m d d' ds out} (h : ¬m.Drops d) (hd : m.Moves d d') (hrest : Relocated ds out) :
      Relocated ((m, d) :: ds) (d' :: out)

/-- The diagnostics of batches in order, each with the map that belongs to its batch. -/
def attributed (maps : List FragmentMap) (batches : List (List Diagnostic)) :
    List (FragmentMap × Diagnostic) :=
  (maps.zip batches).flatMap fun (m, batch) ↦ batch.map (m, ·)

private theorem relocated_iff {ds : List (FragmentMap × Diagnostic)} {out : List Diagnostic} :
    Relocated ds out ↔ out = ds.filterMap fun p ↦ p.1.outcome? p.2 := by
  constructor
  · intro h
    induction h with
    | nil => rfl
    | @dropped m d ds out h hrest ih =>
      rcases m.outcome?_cases d with ⟨hnone, -⟩ | ⟨d', -, hnot, -⟩
      · simp only [List.filterMap_cons, hnone, ih]
      · exact absurd h hnot
    | @moved m d d' ds out h hd hrest ih =>
      rcases m.outcome?_cases d with ⟨-, hdrops⟩ | ⟨d'', hsome, -, hmoves⟩
      · exact absurd hdrops h
      · simp only [List.filterMap_cons, hsome, hd.unique hmoves, ih]
  · rintro rfl
    induction ds with
    | nil => exact .nil
    | cons p ds ih =>
      obtain ⟨m, d⟩ := p
      rcases m.outcome?_cases d with ⟨hnone, hdrops⟩ | ⟨d', hsome, hnot, hmoves⟩
      · simp only [List.filterMap_cons, hnone]
        exact .dropped hdrops ih
      · simp only [List.filterMap_cons, hsome]
        exact .moved hnot hmoves ih

private theorem flatMap_moveBatch_zip (maps : List FragmentMap) (batches : List (List Diagnostic)) :
    ((maps.zip batches).flatMap fun (m, batch) ↦ m.moveBatch batch) =
      (attributed maps batches).filterMap fun p ↦ p.1.outcome? p.2 := by
  rw [attributed, List.filterMap_flatMap]
  simp only [List.filterMap_map, FragmentMap.moveBatch_eq]
  rfl

/-- As many batches as fragments are relocated under the map of their fragment each. -/
theorem relocate_of_maps? {r : Registry} {document : String} {maps : List FragmentMap}
    {batches : List (List Diagnostic)} (h : r.maps? document = some maps)
    (hlength : maps.length = batches.length) : relocate r document batches =
      .ok ((maps.zip batches).flatMap fun (m, batch) ↦ m.moveBatch batch) := by
  rw [relocate, Registry.maps_eq_ok_iff.mpr h, mapError_ok, ok_bind,
    if_neg (not_not_intro hlength)]

/-- Relocation fails when the document has no entry, or when there are more or fewer batches than
fragments; else it yields what becomes of the diagnostics of each batch under the map of its
fragment, one batch after the other. -/
theorem relocate_eq_iff (r : Registry) (document : String) (batches : List (List Diagnostic)) :
    (∀ e, relocate r document batches = .error e ↔
        (r.maps? document = none ∧ e = .registry (.unknownDocument document)) ∨
          ∃ maps, r.maps? document = some maps ∧ maps.length ≠ batches.length ∧
            e = .batchCountMismatch document maps.length batches.length) ∧
      ∀ out, relocate r document batches = .ok out ↔
        ∃ maps, r.maps? document = some maps ∧ maps.length = batches.length ∧
          Relocated (attributed maps batches) out := by
  cases hentry : r.maps? document with
  | none =>
    have hrelocate : relocate r document batches =
        .error (.registry (.unknownDocument document)) := by
      rw [relocate, Registry.maps_eq_error_iff.mpr ⟨hentry, rfl⟩, mapError_error, error_bind]
    constructor
    · intro e
      simp [hrelocate, eq_comm]
    · intro out
      simp [hrelocate]
  | some maps =>
    by_cases hlength : maps.length = batches.length
    · rw [relocate_of_maps? hentry hlength, flatMap_moveBatch_zip]
      constructor
      · intro e
        simp [hlength]
      · intro out
        simp only [Except.ok.injEq, Option.some.injEq, relocated_iff, exists_eq_left', hlength,
          true_and]
        exact eq_comm
    · have hrelocate : relocate r document batches =
          .error (.batchCountMismatch document maps.length batches.length) := by
        rw [relocate, Registry.maps_eq_ok_iff.mpr hentry, mapError_ok, ok_bind, if_pos hlength]
      constructor
      · intro e
        simp [hrelocate, hlength, eq_comm]
      · intro out
        simp [hrelocate, hlength]

end FencedCode
