import FencedCode.PositionMap

/-!
# The stretches of a position map

A map that was filled by `PositionMap.add` is the list of its stretches written out boundary by
boundary. The stretches are in reading order, none is inverted, and no two touch: this is the
invariant `Ascending`, which every successful addition preserves and which decides, together with
the stretch offered, whether an addition succeeds.
-/

namespace FencedCode

namespace Position

/-- A bare position keeps its line. -/
@[simp] theorem bare_line (p : Position) : p.bare.line = p.line := rfl

/-- A bare position keeps its column. -/
@[simp] theorem bare_column (p : Position) : p.bare.column = p.column := rfl

/-- The offset takes no part in the order. -/
@[simp] theorem bare_le {p q : Position} : p.bare ≤ q ↔ p ≤ q := Iff.rfl

/-- An offset does not count in the order, on the greater side. -/
@[simp] theorem le_bare {p q : Position} : p ≤ q.bare ↔ p ≤ q := Iff.rfl

end Position

namespace Segment

/-- An anchor stands at its generated position. -/
@[simp] theorem generated_anchor (g o : Position) : (anchor g o).generated = g := rfl

/-- A limit stands at its generated position. -/
@[simp] theorem generated_limit (l : Position) : (limit l).generated = l := rfl

end Segment

/-- A stretch of a generated text with the range of the host that it comes from. -/
structure Stretch where
  host : Range
  generated : Range
  deriving DecidableEq, Repr

namespace Stretch

/-- The two boundaries of a stretch in a map. -/
def boundaries (s : Stretch) : List Segment :=
  [.anchor s.generated.start.bare s.host.start.bare, .limit s.generated.stop.bare]

/-- Whether a generated position lies in a stretch, both ends included. -/
def Holds (s : Stretch) (q : Position) : Prop := s.generated.start ≤ q ∧ q ≤ s.generated.stop

instance (s : Stretch) (q : Position) : Decidable (s.Holds q) :=
  inferInstanceAs (Decidable (_ ∧ _))

/-- A position that a stretch holds is on one of its lines. -/
theorem Holds.line_le {s : Stretch} {q : Position} (h : s.Holds q) :
    s.generated.start.line ≤ q.line ∧ q.line ≤ s.generated.stop.line := by
  obtain ⟨hstart, hstop⟩ := h
  rw [Position.le_def] at hstart hstop
  omega

/-- The place in the host of a generated position inside the stretch. -/
def place (s : Stretch) (q : Position) : Position :=
  ⟨word (s.host.start.line + (q.line - s.generated.start.line)),
    shiftColumn s.host.start.column q.column s.generated.start.column, none⟩

/-- A stretch moves the line of a position by a sum of words. -/
@[simp] theorem place_line (s : Stretch) (q : Position) :
    (s.place q).line = word (s.host.start.line + (q.line - s.generated.start.line)) := rfl

/-- A stretch moves the column of a position by a sum of words in two's complement. -/
@[simp] theorem place_column (s : Stretch) (q : Position) : (s.place q).column =
    shiftColumn s.host.start.column q.column s.generated.start.column := by
  simp only [place]

end Stretch

/-- Stretches in reading order: none ends before it starts, each starts after the end of those
before it. -/
structure Ascending (ss : List Stretch) : Prop where
  start_le_stop : ∀ s ∈ ss, s.generated.start ≤ s.generated.stop
  stop_lt_start : ss.Pairwise fun s t ↦ s.generated.stop < t.generated.start

namespace Ascending

/-- No stretches ascend. -/
theorem nil : Ascending [] := ⟨by simp, List.Pairwise.nil⟩

/-- A list stays ascending at its end exactly when the new stretch is not inverted and starts after
the last one before it. -/
theorem append_singleton_iff {ss : List Stretch} {s : Stretch} :
    Ascending (ss ++ [s]) ↔ Ascending ss ∧ s.generated.start ≤ s.generated.stop ∧
      ∀ t ∈ ss.getLast?, t.generated.stop < s.generated.start := by
  constructor
  · intro h
    obtain ⟨hp, -, hc⟩ := List.pairwise_append.mp h.stop_lt_start
    refine ⟨⟨fun t ht ↦ h.start_le_stop t (by simp [ht]), hp⟩, h.start_le_stop s (by simp), ?_⟩
    intro t ht
    exact hc t (List.mem_of_getLast? ht) s (by simp)
  · rintro ⟨h, hs, hl⟩
    constructor
    · intro t ht
      rcases List.mem_append.mp ht with ht | ht
      · exact h.start_le_stop t ht
      · rw [List.mem_singleton.mp ht]
        exact hs
    · apply List.pairwise_append.mpr
      refine ⟨h.stop_lt_start, List.pairwise_singleton _ _, ?_⟩
      intro t ht u hu
      rw [List.mem_singleton.mp hu]
      -- only the last stretch was compared with the new one; the others end before it starts
      obtain ⟨init, last, rfl⟩ := List.eq_nil_or_concat ss |>.resolve_left (List.ne_nil_of_mem ht)
      have hlast := hl last (by simp)
      rcases List.mem_append.mp (List.concat_eq_append ▸ ht) with ht | ht
      · have hp := (List.pairwise_append.mp (List.concat_eq_append ▸ h.stop_lt_start)).2.2
        have hle := h.start_le_stop last (by simp)
        exact Position.lt_of_lt_of_le (hp t ht last (by simp))
          (Position.le_trans hle (Position.le_of_lt hlast))
      · rw [List.mem_singleton.mp ht]
        exact hlast

/-- No position lies in two stretches. -/
theorem holds_unique {ss : List Stretch} (h : Ascending ss) {i j : Nat} {s t : Stretch}
    {q : Position} (hi : ss[i]? = some s) (hj : ss[j]? = some t) (hs : s.Holds q)
    (ht : t.Holds q) : i = j := by
  have apart : ∀ {i j : Nat} {s t : Stretch}, ss[i]? = some s → ss[j]? = some t → s.Holds q →
      t.Holds q → ¬i < j := by
    intro i j s t hi hj hs ht hij
    obtain ⟨hli, rfl⟩ := List.getElem?_eq_some_iff.mp hi
    obtain ⟨hlj, rfl⟩ := List.getElem?_eq_some_iff.mp hj
    have hlt := List.pairwise_iff_getElem.mp h.stop_lt_start i j hli hlj hij
    exact Position.not_le.mpr hlt (Position.le_trans ht.1 hs.2)
  have hij := apart hi hj hs ht
  have hji := apart hj hi ht hs
  omega

/-- A position divides the stretches: all start after it, or there is a last one that does not. -/
theorem split (ss : List Stretch) (q : Position) :
    (∀ s ∈ ss, q < s.generated.start) ∨
      ∃ init s rest, ss = init ++ s :: rest ∧ s.generated.start ≤ q ∧
        ∀ t ∈ rest, q < t.generated.start := by
  induction ss with
  | nil => exact .inl (by simp)
  | cons s ss ih =>
    rcases ih with hall | ⟨init, t, rest, rfl, ht, hrest⟩
    · by_cases hs : s.generated.start ≤ q
      · exact .inr ⟨[], s, ss, rfl, hs, hall⟩
      · left
        intro t ht
        rcases List.mem_cons.mp ht with rfl | ht
        · exact Position.not_le.mp hs
        · exact hall t ht
    · exact .inr ⟨s :: init, t, rest, rfl, ht, hrest⟩

end Ascending

namespace PositionMap

/-- The map with the given stretches, in their order. -/
def ofStretches (ss : List Stretch) : PositionMap := ⟨ss.flatMap Stretch.boundaries⟩

/-- The segments of stretches are those of each, one after the other. -/
theorem segments_ofStretches_append (ss ts : List Stretch) :
    (ofStretches (ss ++ ts)).segments =
      (ofStretches ss).segments ++ (ofStretches ts).segments := by
  simp [ofStretches]

/-- The last boundary of a map is the end of its last stretch. -/
private theorem getLast?_segments_ofStretches (ss : List Stretch) :
    (ofStretches ss).segments.getLast? =
      ss.getLast?.map fun s ↦ .limit s.generated.stop.bare := by
  rcases List.eq_nil_or_concat ss with rfl | ⟨init, s, rfl⟩
  · rfl
  · rw [List.concat_eq_append, segments_ofStretches_append, List.getLast?_append,
      List.getLast?_concat]
    rfl

/-- Adding a stretch to a map: it is refused when it is inverted, or else when it does not start
after the end of the last one; otherwise it comes after those of the map. -/
theorem add_ofStretches (ss : List Stretch) (s : Stretch) :
    (ofStretches ss).add s.host s.generated =
      if s.generated.stop < s.generated.start then
        .error (.invertedRange s.generated.start s.generated.stop)
      else
        match ss.getLast? with
        | none => .ok (ofStretches (ss ++ [s]))
        | some t =>
          if s.generated.start ≤ t.generated.stop then
            .error (.outOfOrder t.generated.stop.bare s.generated.start)
          else .ok (ofStretches (ss ++ [s])) := by
  have hsegments : (⟨(ofStretches ss).segments ++ s.boundaries⟩ : PositionMap) =
      ofStretches (ss ++ [s]) := by
    simp [ofStretches]
  unfold add
  split
  · rfl
  · rw [getLast?_segments_ofStretches]
    cases h : ss.getLast? with
    | none =>
      rw [List.getLast?_eq_none_iff.mp h]
      rfl
    | some t =>
      simp only [Option.map_some]
      change (if s.generated.start ≤ t.generated.stop then _ else _) = _
      split
      · rfl
      · rw [← hsegments]
        rfl

/-- A stretch is accepted exactly when the stretches with it are ascending. -/
theorem add_ofStretches_ok_iff {ss : List Stretch} (h : Ascending ss) (s : Stretch)
    (m : PositionMap) :
    (ofStretches ss).add s.host s.generated = .ok m ↔
      Ascending (ss ++ [s]) ∧ m = ofStretches (ss ++ [s]) := by
  rw [add_ofStretches, Ascending.append_singleton_iff]
  split
  · next hinv => simp [Position.not_le.mpr hinv]
  · next hinv =>
    have hle : s.generated.start ≤ s.generated.stop := Position.not_lt.mp hinv
    cases hl : ss.getLast? with
    | none => simp [h, hle, eq_comm]
    | some t =>
      by_cases ht : s.generated.start ≤ t.generated.stop
      · simp [ht, ← Position.not_le]
      · simp [ht, h, hle, ← Position.not_le, eq_comm]

end PositionMap

end FencedCode
