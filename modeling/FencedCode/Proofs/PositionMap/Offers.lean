import FencedCode.Proofs.PositionMap.Lookup

/-!
# Maps filled by any run of attempts

Stretches of any shape are offered to a map one after the other, and it refuses some of them. The
map answers then as the intervals of the accepted stretches do. Byte offsets of the positions
involved have no influence, neither on what is accepted nor on the answers.
-/

namespace FencedCode

namespace Stretch

/-- A stretch without byte offsets. -/
def bare (s : Stretch) : Stretch :=
  ⟨⟨s.host.start.bare, s.host.stop.bare⟩, ⟨s.generated.start.bare, s.generated.stop.bare⟩⟩

/-- A stretch sends a generated position to the one that lies as far below and to the right of its
start in the host as the position does of its generated start, but not to the left of the first
column. Lines and columns are words, and a column is read in two's complement. -/
structure Sends (s : Stretch) (q p : Position) : Prop where
  line : p.line = word (s.host.start.line + (q.line - s.generated.start.line))
  column : (p.column : Int) = max 1 (signedWord
    ((s.host.start.column : Int) + q.column - s.generated.start.column))
  offset : p.offset = none

private theorem sends_iff {s : Stretch} {q p : Position} : s.Sends q p ↔ p = s.place q := by
  constructor
  · rintro ⟨hline, hcolumn, hoffset⟩
    rw [← natCast_shiftColumn] at hcolumn
    cases p
    simp only [place, Position.mk.injEq]
    exact ⟨hline, Int.ofNat_inj.mp hcolumn, hoffset⟩
  · rintro rfl
    refine ⟨rfl, ?_, rfl⟩
    rw [place_column, natCast_shiftColumn]

end Stretch

namespace PositionMap

/-- A map after a stretch was offered to it: with the stretch, or as it was when that is refused. -/
def offer (m : PositionMap) (s : Stretch) : PositionMap :=
  match m.add s.host s.generated with
  | .ok m' => m'
  | .error _ => m

/-- A map after stretches were offered to it one after the other. -/
def offerAll (m : PositionMap) (ss : List Stretch) : PositionMap := ss.foldl offer m

/-- Those of the stretches offered to a map one after the other that it does not refuse. -/
def accepted (m : PositionMap) : List Stretch → List Stretch
  | [] => []
  | s :: ss =>
    match m.add s.host s.generated with
    | .ok m' => s :: accepted m' ss
    | .error _ => accepted m ss

/-- A map that holds ascending stretches holds them and the accepted ones after any run of attempts,
and those are ascending together. -/
theorem offerAll_ofStretches {ts : List Stretch} (h : Ascending ts) (ss : List Stretch) :
    (ofStretches ts).offerAll ss = ofStretches (ts ++ (ofStretches ts).accepted ss) ∧
      Ascending (ts ++ (ofStretches ts).accepted ss) := by
  induction ss generalizing ts with
  | nil => simpa [offerAll, accepted] using h
  | cons s ss ih =>
    simp only [offerAll, List.foldl_cons, offer, accepted]
    cases hadd : (ofStretches ts).add s.host s.generated with
    | error e => exact ih h
    | ok m =>
      obtain ⟨hasc, rfl⟩ := (add_ofStretches_ok_iff h s m).mp hadd
      have hrest := ih hasc
      rw [List.append_assoc] at hrest
      exact hrest

/-- Every map filled by attempts is the list of its accepted stretches. -/
theorem offerAll_empty (ss : List Stretch) :
    empty.offerAll ss = ofStretches (empty.accepted ss) ∧ Ascending (empty.accepted ss) := by
  exact offerAll_ofStretches Ascending.nil ss

/-- What a map makes of a stretch: it is left as it is by one that is inverted, or that does not
start after its last boundary, and has the boundaries of any other. -/
theorem offer_eq (m : PositionMap) (s : Stretch) : m.offer s =
    if s.generated.stop < s.generated.start ∨
        m.segments.getLast?.any (s.generated.start ≤ ·.generated) then m
    else ⟨m.segments ++ s.boundaries⟩ := by
  unfold offer add
  by_cases hinv : s.generated.stop < s.generated.start
  · simp [hinv]
  · cases hl : m.segments.getLast? with
    | none =>
      rw [List.getLast?_eq_none_iff.mp hl]
      simp [hinv, Stretch.boundaries]
    | some last =>
      by_cases hle : s.generated.start ≤ last.generated
      · simp [hinv, hle]
      · simp [hinv, hle, Stretch.boundaries]

/-- What a map makes of a run of attempts does not depend on byte offsets. -/
theorem offerAll_map_bare (m : PositionMap) (ss : List Stretch) :
    m.offerAll (ss.map Stretch.bare) = m.offerAll ss := by
  induction ss generalizing m with
  | nil => rfl
  | cons s ss ih =>
    have hoffer : m.offer s.bare = m.offer s := by
      rw [offer_eq, offer_eq]
      rfl
    simp only [offerAll, List.map_cons, List.foldl_cons, hoffer]
    exact ih (m.offer s)

/-- Looking up a position does not depend on its byte offset. -/
theorem hostPosition?_bare (m : PositionMap) (q : Position) :
    m.hostPosition? q.bare = m.hostPosition? q := rfl

/-- How a map answers for a position when it stands for the intervals of some stretches. -/
structure AnswersAs (m : PositionMap) (ss : List Stretch) (q : Position) : Prop where
  /-- The position has a place exactly when a stretch holds it, and that sends it there. -/
  some_iff : ∀ p, m.hostPosition? q = some p ↔ ∃ s ∈ ss, s.Holds q ∧ s.Sends q p
  none_iff : m.hostPosition? q = none ↔ ∀ s ∈ ss, ¬s.Holds q
  unique : ∀ (i j : Nat) (s t : Stretch), ss[i]? = some s → ss[j]? = some t → s.Holds q →
    t.Holds q → i = j
  /-- The difference of lines is no truncated one. -/
  line_le : ∀ s ∈ ss, s.Holds q → s.generated.start.line ≤ q.line
  one_le_column : ∀ p, m.hostPosition? q = some p → 1 ≤ p.column
  /-- A line that a word holds is the sum itself. -/
  exact_line : ∀ s ∈ ss, s.Holds q → ∀ p, m.hostPosition? q = some p →
    s.host.start.line + (q.line - s.generated.start.line) < UInt64.size →
      p.line = s.host.start.line + (q.line - s.generated.start.line)
  /-- Columns that leave room in a word are added and subtracted as integers. -/
  exact_column : ∀ s ∈ ss, s.Holds q → ∀ p, m.hostPosition? q = some p →
    s.host.start.column < sumLimit → q.column < sumLimit → s.generated.start.column < sumLimit →
      (p.column : Int) = max 1 ((s.host.start.column : Int) + q.column - s.generated.start.column)
  /-- The boundaries up to the position are those at the front, so halving the list finds them. -/
  partitioned : m.segments.takeWhile (·.generated ≤ q) = m.segments.filter (·.generated ≤ q)
  /-- A limit that is the last boundary up to the position has an anchor directly before it. -/
  limit_after_anchor : ∀ l bs, (m.segments.takeWhile (·.generated ≤ q)).reverse = .limit l :: bs →
    ∃ g o bs', bs = .anchor g o :: bs'

/-- Whatever stretches are offered to the empty map, it answers for every position as the intervals
of the accepted ones, and byte offsets have no influence on that. -/
theorem hostPosition?_offerAll (ss : List Stretch) (q : Position) :
    (empty.offerAll ss).AnswersAs (empty.accepted ss) q ∧
      ∀ ts r, ts.map Stretch.bare = ss.map Stretch.bare → r.bare = q.bare →
        (empty.offerAll ts).hostPosition? r = (empty.offerAll ss).hostPosition? q := by
  obtain ⟨hmap, hasc⟩ := offerAll_empty ss
  constructor
  · rw [hmap]
    have hplace : ∀ s ∈ empty.accepted ss, s.Holds q → ∀ p,
        (ofStretches (empty.accepted ss)).hostPosition? q = some p → p = s.place q :=
      fun s hs hq p hp ↦ Option.some.inj
        (hp.symm.trans (hasc.hostPosition?_eq_some_iff.mpr ⟨s, hs, hq, rfl⟩))
    refine ⟨fun p ↦ ?_, hasc.hostPosition?_eq_none_iff, ?_, ?_, fun p ↦ one_le_column, ?_, ?_,
      hasc.takeWhile_eq_filter q, fun l bs ↦ hasc.anchor_before_limit⟩
    · simp only [hasc.hostPosition?_eq_some_iff, Stretch.sends_iff]
    · intro i j s t hi hj hs ht
      exact hasc.holds_unique hi hj hs ht
    · intro s _ hq
      have hle := Position.le_def.mp hq.1
      omega
    · intro s hs hq p hp hline
      rw [hplace s hs hq p hp, Stretch.place_line, word_eq hline]
    · intro s hs hq p hp hhost hcolumn horigin
      rw [hplace s hs hq p hp, Stretch.place_column]
      exact shiftColumn_eq_of_lt hhost hcolumn horigin
  · intro ts r hts hr
    rw [← hostPosition?_bare _ r, hr, hostPosition?_bare, ← offerAll_map_bare _ ts, hts,
      offerAll_map_bare]

end PositionMap

end FencedCode
