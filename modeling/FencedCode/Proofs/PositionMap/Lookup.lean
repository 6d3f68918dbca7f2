import FencedCode.Proofs.PositionMap.Stretches

/-!
# Looking a position up

A map answers by the last boundary at or before a position. On the boundaries of ascending
stretches this finds the one stretch that holds the position, so a map is a partial function given
by intervals. The main statement is about any run of attempts to fill a map, the refused ones
included.
-/

namespace FencedCode

/-- A column is moved by the distance between two columns, but not out of its line to the left. -/
theorem natCast_shiftColumn (column target origin : Nat) :
    (shiftColumn column target origin : Int) =
      max 1 (signedWord ((column : Int) + target - origin)) := by
  unfold shiftColumn
  omega

/-- A column is moved exactly when the sum stays in the range of a word. -/
theorem shiftColumn_eq {column target origin : Nat} (hlow : origin ≤ column + target + signedLimit)
    (hhigh : column + target < origin + signedLimit) :
    (shiftColumn column target origin : Int) = max 1 ((column : Int) + target - origin) := by
  rw [natCast_shiftColumn, signedWord_eq (by omega) (by omega)]

/-- Columns below a quarter of the range of a word are moved exactly. -/
theorem shiftColumn_eq_of_lt {column target origin : Nat} (hc : column < sumLimit)
    (ht : target < sumLimit) (ho : origin < sumLimit) :
    (shiftColumn column target origin : Int) = max 1 ((column : Int) + target - origin) := by
  have hlimit : sumLimit + sumLimit = signedLimit := rfl
  exact shiftColumn_eq (by omega) (by omega)

/-- No column is moved to the left of the first one. -/
theorem one_le_shiftColumn (column target origin : Nat) :
    1 ≤ shiftColumn column target origin := by
  have h := natCast_shiftColumn column target origin
  omega

/-- No map leads to the left of the first column. -/
theorem PositionMap.one_le_column {m : PositionMap} {q p : Position}
    (h : m.hostPosition? q = some p) : 1 ≤ p.column := by
  obtain ⟨⟨g, o⟩, -, hp⟩ := Option.map_eq_some_iff.mp h
  subst hp
  simpa only using one_le_shiftColumn o.column q.column g.column

namespace Ascending

/-- Up to a position in a stretch, or after it and before the next one, the boundaries of a map are
all those before the stretch, its anchor, and its limit unless the position is before that. -/
private theorem takeWhile_boundaries {init rest : List Stretch} {s : Stretch} {q : Position}
    (h : Ascending (init ++ s :: rest)) (hs : s.generated.start ≤ q)
    (hrest : ∀ t ∈ rest, q < t.generated.start) :
    (PositionMap.ofStretches (init ++ s :: rest)).segments.takeWhile (·.generated ≤ q) =
      (PositionMap.ofStretches init).segments ++
        .anchor s.generated.start.bare s.host.start.bare ::
          if s.generated.stop ≤ q then [.limit s.generated.stop.bare] else [] := by
  have hinit : ∀ b ∈ (PositionMap.ofStretches init).segments, b.generated ≤ q := by
    intro b hb
    obtain ⟨t, ht, hb⟩ := List.mem_flatMap.mp hb
    have hlt := (List.pairwise_append.mp h.stop_lt_start).2.2 t ht s (by simp)
    have hstop := Position.le_trans (Position.le_of_lt hlt) hs
    have hstart := h.start_le_stop t (by simp [ht])
    simp only [Stretch.boundaries, List.mem_cons, List.not_mem_nil, or_false] at hb
    rcases hb with rfl | rfl
    · exact Position.le_trans hstart hstop
    · exact hstop
  have htail : (PositionMap.ofStretches rest).segments.takeWhile (·.generated ≤ q) = [] := by
    cases rest with
    | nil => rfl
    | cons t rest =>
      have hlt := Position.not_le.mpr (hrest t (by simp))
      simp [PositionMap.ofStretches, Stretch.boundaries, hlt]
  have hsplit : (PositionMap.ofStretches (init ++ s :: rest)).segments =
      (PositionMap.ofStretches init).segments ++
        .anchor s.generated.start.bare s.host.start.bare ::
          .limit s.generated.stop.bare :: (PositionMap.ofStretches rest).segments := by
    rw [PositionMap.segments_ofStretches_append]
    rfl
  rw [hsplit, List.takeWhile_append_of_pos (by simpa using hinit),
    List.takeWhile_cons_of_pos (by simpa using hs)]
  congr 2
  split
  · next hstop =>
    rw [List.takeWhile_cons_of_pos (by simpa using hstop), htail]
  · next hstop =>
    rw [List.takeWhile_cons_of_neg (by simpa using hstop)]

/-- Before the first stretch there is no boundary. -/
private theorem takeWhile_boundaries_of_lt {ss : List Stretch} {q : Position}
    (hall : ∀ s ∈ ss, q < s.generated.start) :
    (PositionMap.ofStretches ss).segments.takeWhile (·.generated ≤ q) = [] := by
  cases ss with
  | nil => rfl
  | cons s ss =>
    have hlt := Position.not_le.mpr (hall s (by simp))
    simp [PositionMap.ofStretches, Stretch.boundaries, hlt]

/-- The boundaries of ascending stretches up to a position stand at the front. -/
theorem takeWhile_eq_filter {ss : List Stretch} (h : Ascending ss) (q : Position) :
    (PositionMap.ofStretches ss).segments.takeWhile (·.generated ≤ q) =
      (PositionMap.ofStretches ss).segments.filter (·.generated ≤ q) := by
  -- past the first boundary after the position all others are after it, too
  induction ss with
  | nil => rfl
  | cons s ss ih =>
    have htail : Ascending ss :=
      ⟨fun t ht ↦ h.start_le_stop t (by simp [ht]), h.stop_lt_start.of_cons⟩
    have hlater : ¬s.generated.stop ≤ q →
        (PositionMap.ofStretches ss).segments.filter (·.generated ≤ q) = [] := by
      intro hstop
      apply List.filter_eq_nil_iff.mpr
      intro b hb
      obtain ⟨t, ht, hb⟩ := List.mem_flatMap.mp hb
      have hlt := Position.lt_of_lt_of_le (Position.not_le.mp hstop)
        (Position.le_of_lt (List.rel_of_pairwise_cons h.stop_lt_start ht))
      have hle := htail.start_le_stop t ht
      simp only [Stretch.boundaries, List.mem_cons, List.not_mem_nil, or_false] at hb
      rcases hb with rfl | rfl
      · simpa using Position.not_le.mpr hlt
      · simpa using
          Position.not_le.mpr (Position.lt_of_lt_of_le hlt hle)
    have hcons : (PositionMap.ofStretches (s :: ss)).segments =
        .anchor s.generated.start.bare s.host.start.bare :: .limit s.generated.stop.bare ::
          (PositionMap.ofStretches ss).segments := rfl
    have hle := h.start_le_stop s (by simp)
    rw [hcons]
    by_cases hstop : s.generated.stop ≤ q
    · have hstart := Position.le_trans hle hstop
      simp [hstart, hstop, ih htail]
    · by_cases hstart : s.generated.start ≤ q
      · simp [hstart, hstop, hlater hstop]
      · simp [hstart, hstop, hlater hstop]

/-- In front of the last boundary up to a position stands an anchor when that boundary is a
limit. -/
theorem anchor_before_limit {ss : List Stretch} (h : Ascending ss) {q l : Position}
    {bs : List Segment}
    (hbs : ((PositionMap.ofStretches ss).segments.takeWhile (·.generated ≤ q)).reverse =
      .limit l :: bs) :
    ∃ g o bs', bs = .anchor g o :: bs' := by
  rcases split ss q with hall | ⟨init, s, rest, rfl, hs, hrest⟩
  · rw [takeWhile_boundaries_of_lt hall] at hbs
    cases hbs
  · rw [takeWhile_boundaries h hs hrest] at hbs
    by_cases hstop : s.generated.stop ≤ q
    · simp only [hstop, if_true, List.reverse_append, List.reverse_cons, List.reverse_nil,
        List.nil_append, List.cons_append, List.cons.injEq] at hbs
      exact ⟨_, _, _, hbs.2.symm⟩
    · simp [hstop] at hbs

/-- The anchor found for a position is the start of the stretch that holds it. -/
theorem anchor?_eq_some_iff {ss : List Stretch} (h : Ascending ss) {q g o : Position} :
    (PositionMap.ofStretches ss).anchor? q = some (g, o) ↔
      ∃ s ∈ ss, s.Holds q ∧ g = s.generated.start.bare ∧ o = s.host.start.bare := by
  unfold PositionMap.anchor?
  rcases split ss q with hall | ⟨init, s, rest, rfl, hs, hrest⟩
  · rw [takeWhile_boundaries_of_lt hall]
    simp only [List.reverse_nil, reduceCtorEq, false_iff]
    rintro ⟨s, hmem, hholds, -⟩
    exact Position.not_le.mpr (hall s hmem) hholds.1
  · -- a stretch that holds the position is the one at the split
    have honly : ∀ t ∈ init ++ s :: rest, t.Holds q → t = s := by
      intro t ht hholds
      rcases List.mem_append.mp ht with ht | ht
      · have hlt := (List.pairwise_append.mp h.stop_lt_start).2.2 t ht s (by simp)
        exact absurd (Position.le_trans hs hholds.2) (Position.not_le.mpr hlt)
      · rcases List.mem_cons.mp ht with rfl | ht
        · rfl
        · exact absurd hholds.1 (Position.not_le.mpr (hrest t ht))
    have hiff : (∃ t ∈ init ++ s :: rest, t.Holds q ∧ g = t.generated.start.bare ∧
        o = t.host.start.bare) ↔
          q ≤ s.generated.stop ∧ g = s.generated.start.bare ∧ o = s.host.start.bare := by
      constructor
      · rintro ⟨t, ht, hholds, hg, ho⟩
        obtain rfl := honly t ht hholds
        exact ⟨hholds.2, hg, ho⟩
      · rintro ⟨hstop, hg, ho⟩
        exact ⟨s, by simp, ⟨hs, hstop⟩, hg, ho⟩
    rw [hiff, takeWhile_boundaries h hs hrest]
    by_cases hstop : s.generated.stop ≤ q
    · by_cases hq : q ≤ s.generated.stop
      · simp [hstop, hq, eq_comm]
      · simp [hstop, hq]
    · have hq : q ≤ s.generated.stop := Position.le_of_lt (Position.not_le.mp hstop)
      simp [hstop, hq, eq_comm]

/-- A map of ascending stretches sends a position to the place that the stretch around it gives, and
has no place for a position outside of all stretches. -/
theorem hostPosition?_eq_some_iff {ss : List Stretch} (h : Ascending ss) {q p : Position} :
    (PositionMap.ofStretches ss).hostPosition? q = some p ↔
      ∃ s ∈ ss, s.Holds q ∧ p = s.place q := by
  unfold PositionMap.hostPosition?
  simp only [Option.map_eq_some_iff, Prod.exists, h.anchor?_eq_some_iff]
  constructor
  · rintro ⟨g, o, ⟨s, hs, hq, rfl, rfl⟩, rfl⟩
    exact ⟨s, hs, hq, rfl⟩
  · rintro ⟨s, hs, hq, rfl⟩
    exact ⟨_, _, ⟨s, hs, hq, rfl, rfl⟩, rfl⟩

/-- A position outside of all stretches has no place. -/
theorem hostPosition?_eq_none_iff {ss : List Stretch} (h : Ascending ss) {q : Position} :
    (PositionMap.ofStretches ss).hostPosition? q = none ↔ ∀ s ∈ ss, ¬s.Holds q := by
  rw [Option.eq_none_iff_forall_ne_some]
  constructor
  · intro hnone s hs hq
    exact hnone (s.place q) (h.hostPosition?_eq_some_iff.mpr ⟨s, hs, hq, rfl⟩)
  · intro hnone p hp
    obtain ⟨s, hs, hq, -⟩ := h.hostPosition?_eq_some_iff.mp hp
    exact hnone s hs hq

end Ascending

end FencedCode
