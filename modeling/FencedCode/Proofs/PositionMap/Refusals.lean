import FencedCode.Proofs.PositionMap.Offers

/-!
# What a map refuses

A map that stretches were offered to holds the boundaries of the accepted ones, and the last of
these alone decides what becomes of the next stretch. One that is refused leaves the map as it was,
so that all attempts after it go as if it had not been made.
-/

namespace FencedCode.PositionMap

/-- A refused stretch leaves the map as it was. -/
private theorem offer_of_error {m : PositionMap} {s : Stretch} {e : MapError}
    (h : m.add s.host s.generated = .error e) : m.offer s = m := by
  rw [offer, h]

/-- An accepted stretch leaves the map that the addition yields. -/
private theorem offer_of_ok {m m' : PositionMap} {s : Stretch}
    (h : m.add s.host s.generated = .ok m') : m.offer s = m' := by
  rw [offer, h]

private theorem offerAll_append (m : PositionMap) (ss ts : List Stretch) :
    m.offerAll (ss ++ ts) = (m.offerAll ss).offerAll ts := by
  rw [offerAll, offerAll, offerAll, List.foldl_append]

/-- What is accepted of later attempts depends on the map that the earlier ones left. -/
theorem accepted_append (m : PositionMap) (ss ts : List Stretch) :
    m.accepted (ss ++ ts) = m.accepted ss ++ (m.offerAll ss).accepted ts := by
  induction ss generalizing m with
  | nil => rfl
  | cons s ss ih =>
    rw [List.cons_append, accepted, accepted, offerAll, List.foldl_cons, ← offerAll]
    cases h : m.add s.host s.generated with
    | error e =>
      rw [offer_of_error h]
      exact ih m
    | ok m' =>
      rw [offer_of_ok h, List.cons_append]
      exact congrArg (s :: ·) (ih m')

/-- A refused attempt may be left out of a run. -/
private theorem run_append_cons_of_error {m : PositionMap} {before : List Stretch} {s : Stretch}
    {e : MapError} (h : (m.offerAll before).add s.host s.generated = .error e)
    (after : List Stretch) :
    m.offerAll (before ++ s :: after) = m.offerAll (before ++ after) ∧
      m.accepted (before ++ s :: after) = m.accepted (before ++ after) := by
  constructor
  · rw [offerAll_append, offerAll_append, offerAll, List.foldl_cons, offer_of_error h, ← offerAll]
  · rw [accepted_append, accepted_append, accepted, h]

/-- A stretch is refused for being inverted, or else for not starting after the last one. -/
theorem add_ofStretches_error_iff {ss : List Stretch} {s : Stretch} {e : MapError} :
    (ofStretches ss).add s.host s.generated = .error e ↔
      (s.generated.stop < s.generated.start ∧
          e = .invertedRange s.generated.start s.generated.stop) ∨
        (s.generated.start ≤ s.generated.stop ∧ ∃ t, ss.getLast? = some t ∧
          s.generated.start ≤ t.generated.stop ∧
            e = .outOfOrder t.generated.stop.bare s.generated.start) := by
  rw [add_ofStretches, ← Position.not_lt (p := s.generated.stop)]
  by_cases hinv : s.generated.stop < s.generated.start
  · simp [hinv, eq_comm]
  · cases hlast : ss.getLast? with
    | none => simp [hinv]
    | some t =>
      by_cases hle : s.generated.start ≤ t.generated.stop
      · simp [hinv, hle, eq_comm]
      · simp [hinv, hle]

/-- After any run of attempts a map holds an anchor and a limit for each accepted stretch, in
reading order. The next stretch is refused exactly when it is inverted, or else does not start after
the end of the last accepted one, with the error that says so; otherwise its boundaries come after
those of the map. A refused one changes neither the map nor what is accepted later. -/
theorem add_offerAll (ss : List Stretch) (s : Stretch) :
    let m := empty.offerAll ss
    let kept := empty.accepted ss
    (m.segments = kept.flatMap Stretch.boundaries ∧ Ascending kept) ∧
      (∀ e, m.add s.host s.generated = .error e ↔
        (s.generated.stop < s.generated.start ∧
            e = .invertedRange s.generated.start s.generated.stop) ∨
          (s.generated.start ≤ s.generated.stop ∧ ∃ t, kept.getLast? = some t ∧
            s.generated.start ≤ t.generated.stop ∧
              e = .outOfOrder t.generated.stop.bare s.generated.start)) ∧
      (∀ m', m.add s.host s.generated = .ok m' ↔
        s.generated.start ≤ s.generated.stop ∧
          (∀ t ∈ kept.getLast?, t.generated.stop < s.generated.start) ∧
            m' = ⟨m.segments ++ s.boundaries⟩) ∧
      (∀ m', m.add s.host s.generated = .ok m' → empty.offerAll (ss ++ [s]) = m' ∧
        empty.accepted (ss ++ [s]) = kept ++ [s]) ∧
      ∀ e, m.add s.host s.generated = .error e → ∀ after,
        empty.offerAll (ss ++ s :: after) = empty.offerAll (ss ++ after) ∧
          empty.accepted (ss ++ s :: after) = empty.accepted (ss ++ after) := by
  intro m kept
  obtain ⟨hmap, hasc⟩ := offerAll_empty ss
  have hsegments : (⟨m.segments ++ s.boundaries⟩ : PositionMap) = ofStretches (kept ++ [s]) := by
    simp [m, kept, hmap, ofStretches]
  refine ⟨⟨?_, hasc⟩, ?_, ?_, ?_, fun e he ↦ run_append_cons_of_error he⟩
  · rw [show m = ofStretches kept from hmap]
    rfl
  · intro e
    rw [show m = ofStretches kept from hmap]
    exact add_ofStretches_error_iff
  · intro m'
    rw [hsegments, show m = ofStretches kept from hmap, add_ofStretches_ok_iff hasc,
      Ascending.append_singleton_iff]
    simp only [hasc, true_and, and_assoc]
    rfl
  · intro m' hm'
    constructor
    · rw [offerAll_append]
      exact offer_of_ok hm'
    · rw [accepted_append, accepted, hm']
      rfl

/-- A stretch above the one accepted before it is refused, and the one after it is accepted as if
the two stood alone. -/
theorem add_offerAll_above :
    let first : Stretch := ⟨⟨⟨5, 1, none⟩, ⟨5, 4, none⟩⟩, ⟨⟨2, 1, none⟩, ⟨2, 4, none⟩⟩⟩
    let above : Stretch := ⟨⟨⟨4, 1, none⟩, ⟨4, 4, none⟩⟩, ⟨⟨1, 1, none⟩, ⟨1, 4, none⟩⟩⟩
    let below : Stretch := ⟨⟨⟨6, 1, none⟩, ⟨6, 1, none⟩⟩, ⟨⟨2, 5, none⟩, ⟨2, 5, none⟩⟩⟩
    (empty.offerAll [first]).add above.host above.generated =
        .error (.outOfOrder ⟨2, 4, none⟩ ⟨1, 1, none⟩) ∧
      empty.accepted [first, above, below] = [first, below] := by
  intro first above below
  obtain ⟨-, herror, -, -, hskip⟩ := add_offerAll [first] above
  have hrefused := (herror (.outOfOrder ⟨2, 4, none⟩ ⟨1, 1, none⟩)).mpr
    (.inr ⟨by decide, first, by decide, by decide, by decide⟩)
  refine ⟨hrefused, (hskip _ hrefused [below]).2.trans ?_⟩
  decide

end FencedCode.PositionMap
