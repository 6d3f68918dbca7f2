import FencedCode.Proofs.Fragment.Success

/-!
# Why a fragment has no source

The code block may stand anywhere, also outside of the document or upside down, and the directives
may hold any text and claim any place. Each error then stands for one condition on them, and the
errors exclude each other: a missing language goes before a directive whose range is inverted, and
that before a missing line. No error says that a map was filled out of order.
-/

namespace FencedCode

namespace Directive

/-- Whether a directive takes one line of a source, or its comment one of the document, while the
comment ends at a column to the left of that of its start. -/
def TurnsBack (d : Directive) : Prop :=
  min d.location.height (d.text.count '\n') = 0 ∧
    d.location.stop.column < d.location.start.column

instance (d : Directive) : Decidable d.TurnsBack := inferInstanceAs (Decidable (_ ∧ _))

/-- Whether the columns of a directive leave room for sums in a word. -/
structure HasColumns (d : Directive) : Prop where
  start_lt : d.location.start.column < sumLimit
  stop_lt : d.location.stop.column < sumLimit

/-- With such columns the directives that collapse are those that turn back. -/
theorem collapses_eq_true_iff {d : Directive} (h : d.HasColumns) :
    d.collapses = true ↔ d.TurnsBack := by
  have hstart := h.start_lt
  have hstop := h.stop_lt
  have hlimit : sumLimit + sumLimit = signedLimit := rfl
  have hroom : 3 < sumLimit := by decide
  rw [collapses_iff, TurnsBack, signedWord_eq (by omega) (by omega)]
  omega

private theorem collapses_eq_false_iff {d : Directive} (h : d.HasColumns) :
    d.collapses = false ↔ ¬d.TurnsBack := by
  rw [← collapses_eq_true_iff h, Bool.not_eq_true]

/-- The range of a directive that turns back lies on one line of the source. -/
theorem TurnsBack.stop_stretch {d : Directive} (hd : d.TurnsBack) (h : d.HasColumns) (first : Nat) :
    (d.stretch first).generated.stop =
      ⟨first, max 1 (d.location.stop.column + 3 - d.location.start.column), none⟩ := by
  have hcolumn := shiftColumn_eq_of_lt (show commentOpening.length + 1 < sumLimit by decide)
    h.stop_lt h.start_lt
  have hopening : commentOpening.length + 1 = 3 := rfl
  have hheight := hd.1
  simp only [stretch, generatedRange, length_commentLines, Position.mk.injEq, and_true]
  omega

end Directive

/-- What each error says of a code block and of its directives. -/
def SourceError.Applies (x : LineIndex) (n : Node) (ds : List Directive) : SourceError → Prop
  | .missingLanguage => n.languageTag? = none
  | .map (.invertedRange start stop) => n.languageTag? ≠ none ∧
      ∃ before d after, ds = before ++ d :: after ∧ (∀ e ∈ before, ¬e.TurnsBack) ∧ d.TurnsBack ∧
        start = ⟨directiveHeight before + 1, 3, none⟩ ∧
          stop = ⟨directiveHeight before + 1,
            max 1 (d.location.stop.column + 3 - d.location.start.column), none⟩
  | .map (.outOfOrder _ _) => False
  | .lineOutOfBounds line lineCount => n.languageTag? ≠ none ∧ (∀ d ∈ ds, ¬d.TurnsBack) ∧
      n.LeavesText x ∧ line = n.missingLine x (containerIndent x n) ∧ lineCount = x.lineCount

namespace SourceBlock

variable {x : LineIndex} {n : Node} {ds : List Directive}

/-- An error that applies is the one that is met. -/
theorem ofNode_of_applies (hds : ∀ d ∈ ds, d.HasColumns) {e : SourceError}
    (he : e.Applies x n ds) (id : FragmentId) : SourceBlock.ofNode x n ds id = .error e := by
  match e with
  | .missingLanguage => exact ofNode_of_languageTag?_eq_none he id
  | .map (.invertedRange start stop) =>
    obtain ⟨htag, before, d, after, rfl, hbefore, hd, rfl, rfl⟩ := he
    have hcolumns : d.HasColumns := hds d (by simp)
    have hfirst : ∀ e ∈ before, e.collapses = false := fun e he ↦
      (Directive.collapses_eq_false_iff (hds e (by simp [he]))).mpr (hbefore e he)
    rw [ofNode_of_collapses htag hfirst ((Directive.collapses_eq_true_iff hcolumns).mpr hd),
      hd.stop_stretch hcolumns, Nat.add_comm 1]
    rfl
  | .map (.outOfOrder _ _) => exact he.elim
  | .lineOutOfBounds line lineCount =>
    obtain ⟨htag, hnone, hout, rfl, rfl⟩ := he
    exact ofNode_of_leavesText htag
      (fun d hd ↦ (Directive.collapses_eq_false_iff (hds d hd)).mpr (hnone d hd)) hout id

/-- Unless a code block has all that a source needs, an error applies. -/
theorem exists_applies (x : LineIndex) (n : Node) (ds : List Directive) :
    (n.languageTag? ≠ none ∧ (∀ d ∈ ds, ¬d.TurnsBack) ∧ ¬n.LeavesText x) ∨
      ∃ e : SourceError, e.Applies x n ds := by
  by_cases htag : n.languageTag? = none
  · exact .inr ⟨.missingLanguage, htag⟩
  · cases hfind : ds.find? (fun d ↦ d.TurnsBack) with
    | some d =>
      obtain ⟨hd, before, after, hsplit, hbefore⟩ := List.find?_eq_some_iff_append.mp hfind
      exact .inr ⟨.map (.invertedRange _ _), htag, before, d, after, hsplit, by simpa using hbefore,
        by simpa using hd, rfl, rfl⟩
    | none =>
      have hnone : ∀ d ∈ ds, ¬d.TurnsBack := by simpa using hfind
      by_cases hout : n.LeavesText x
      · exact .inr ⟨.lineOutOfBounds _ _, htag, hnone, hout, rfl, rfl⟩
      · exact .inl ⟨htag, hnone, hout⟩

/-- A code block has a source when it has a language, no directive turns back and all its lines are
lines of the document; in any other case the error is the one that applies. -/
theorem ofNode_eq_error_iff (x : LineIndex) (n : Node) {ds : List Directive}
    (hds : ∀ d ∈ ds, d.HasColumns) (id : FragmentId) :
    (∀ e, SourceBlock.ofNode x n ds id = .error e ↔ e.Applies x n ds) ∧
      ((∃ b, SourceBlock.ofNode x n ds id = .ok b) ↔
        n.languageTag? ≠ none ∧ (∀ d ∈ ds, ¬d.TurnsBack) ∧ ¬n.LeavesText x) := by
  have hmade : n.languageTag? ≠ none ∧ (∀ d ∈ ds, ¬d.TurnsBack) ∧ ¬n.LeavesText x →
      ∃ b, SourceBlock.ofNode x n ds id = .ok b := by
    rintro ⟨htag, hnone, hin⟩
    obtain ⟨b, hb, -⟩ := exists_ofNode htag
      (fun d hd ↦ (Directive.collapses_eq_false_iff (hds d hd)).mpr (hnone d hd)) hin id
    exact ⟨b, hb⟩
  constructor
  · intro e
    constructor
    · intro herror
      rcases exists_applies x n ds with hall | ⟨e', he'⟩
      · obtain ⟨b, hb⟩ := hmade hall
        rw [hb] at herror
        cases herror
      · rw [ofNode_of_applies hds he' id, Except.error.injEq] at herror
        rwa [← herror]
    · intro he
      exact ofNode_of_applies hds he id
  · refine ⟨?_, hmade⟩
    rintro ⟨b, hb⟩
    refine (exists_applies x n ds).resolve_right ?_
    rintro ⟨e, he⟩
    rw [ofNode_of_applies hds he id] at hb
    cases hb

/-- The second of two directives turns back, which counts more than that the block is said to end
below the document. -/
theorem ofNode_eq_error_iff_turned :
    let global : Directive := ⟨"global a".toList, ⟨⟨1, 1, none⟩, ⟨1, 18, none⟩⟩⟩
    let turned : Directive := ⟨"eslint a".toList, ⟨⟨2, 11, none⟩, ⟨3, 4, none⟩⟩⟩
    (∀ d ∈ [global, turned], d.HasColumns) ∧
      SourceBlock.ofNode (.ofText "```js\nx\n```\n".toList)
          { kind := .code, range := ⟨⟨1, 1, none⟩, ⟨9, 1, none⟩⟩, lang := some "js".toList }
          [global, turned] ⟨"doc.md", 0⟩ =
        .error (.map (.invertedRange ⟨2, 3, none⟩ ⟨2, 1, none⟩)) := by
  intro global turned
  have hds : ∀ d ∈ [global, turned], d.HasColumns :=
    List.forall_mem_cons.mpr ⟨⟨by decide, by decide⟩,
      List.forall_mem_singleton.mpr ⟨by decide, by decide⟩⟩
  refine ⟨hds, ((ofNode_eq_error_iff _ _ hds _).1 _).mpr ?_⟩
  exact ⟨by decide, [global], turned, [], rfl, by decide, by decide, by decide, by decide⟩

end SourceBlock

end FencedCode
