import FencedCode.Proofs.Extraction.Entry
import FencedCode.Proofs.Registry.Changes
import FencedCode.Proofs.Relocation.Outcomes

/-!
# Batches given with the identities of their fragments

Batches that are given with identities are relocated one by one, up to the first identity that is
not registered. For the sources of an extraction, in their order, this is what relocating the
batches by their places is.
-/

namespace FencedCode

/-- A pair whose identity is found comes before the others. -/
private theorem relocateBatches_cons_ok {r : Registry} {id : FragmentId} {map : FragmentMap}
    (h : r.find id = .ok map) (batch : List Diagnostic)
    (rest : List (FragmentId × List Diagnostic)) :
    relocateBatches r ((id, batch) :: rest) =
      (relocateBatches r rest).map (map.moveBatch batch ++ ·) := by
  rw [relocateBatches, h, mapError_ok, ok_bind]
  cases relocateBatches r rest with
  | ok out => rfl
  | error e => rfl

private theorem relocateBatches_cons_error {r : Registry} {id : FragmentId} {e : RegistryError}
    (h : r.find id = .error e) (batch : List Diagnostic)
    (rest : List (FragmentId × List Diagnostic)) :
    relocateBatches r ((id, batch) :: rest) = .error (.registry e) := by
  rw [relocateBatches, h, mapError_error, error_bind]

/-- What one pair comes to: the diagnostics of the batch under the map of the fragment. -/
private theorem relocateBatches_singleton_eq_ok_iff {r : Registry} {id : FragmentId}
    {batch out : List Diagnostic} : relocateBatches r [(id, batch)] = .ok out ↔
      ∃ map, r.find id = .ok map ∧ out = map.moveBatch batch := by
  cases h : r.find id with
  | error e => simp [relocateBatches_cons_error h]
  | ok map =>
    rw [relocateBatches_cons_ok h, relocateBatches]
    simp [Except.map, eq_comm]

/-- Pairs that all come to something come to that, one after the other. -/
theorem relocateBatches_eq_ok {r : Registry} {pairs : List (FragmentId × List Diagnostic)}
    {parts : List (List Diagnostic)}
    (h : List.Forall₂ (fun p part ↦ relocateBatches r [p] = .ok part) pairs parts) :
    relocateBatches r pairs = .ok parts.flatten := by
  induction h with
  | nil => rfl
  | @cons p part pairs parts hp _ ih =>
    obtain ⟨map, hmap, rfl⟩ := relocateBatches_singleton_eq_ok_iff.mp hp
    rw [relocateBatches_cons_ok hmap, ih]
    rfl

/-- The first identity that is not registered stops the relocation. -/
theorem relocateBatches_eq_error {r : Registry} {before : List (FragmentId × List Diagnostic)}
    (hbefore : ∀ q ∈ before, r.Registers q.1) {p : FragmentId × List Diagnostic}
    (hp : ¬r.Registers p.1) (after : List (FragmentId × List Diagnostic)) :
    relocateBatches r (before ++ p :: after) = .error (.registry (r.notFound p.1)) := by
  induction before with
  | nil =>
    rcases r.find_cases p.1 with ⟨hregisters, -⟩ | ⟨-, herror⟩
    · exact absurd hregisters hp
    · exact relocateBatches_cons_error herror p.2 after
  | cons q before ih =>
    obtain ⟨hq, hrest⟩ := List.forall_mem_cons.mp hbefore
    rcases r.find_cases q.1 with ⟨-, map, hmap⟩ | ⟨hnot, -⟩
    · rw [List.cons_append, relocateBatches_cons_ok hmap, ih hrest]
      rfl
    · exact absurd hq hnot

/-- All identities of some pairs are registered, or there is a first one that is not. -/
theorem registered_or_exists_first (r : Registry) (pairs : List (FragmentId × List Diagnostic)) :
    (∃ parts, List.Forall₂ (fun p part ↦ relocateBatches r [p] = .ok part) pairs parts ∧
        ∀ p ∈ pairs, r.Registers p.1) ∨
      ∃ before p after, pairs = before ++ p :: after ∧ (∀ q ∈ before, r.Registers q.1) ∧
        ¬r.Registers p.1 := by
  induction pairs with
  | nil => exact .inl ⟨[], .nil, by simp⟩
  | cons p pairs ih =>
    rcases r.find_cases p.1 with ⟨hp, map, hmap⟩ | ⟨hp, -⟩
    · rcases ih with ⟨parts, hparts, hall⟩ | ⟨before, q, after, rfl, hbefore, hq⟩
      · have hpart : relocateBatches r [p] = .ok (map.moveBatch p.2) :=
          relocateBatches_singleton_eq_ok_iff.mpr ⟨map, hmap, rfl⟩
        exact .inl ⟨map.moveBatch p.2 :: parts, hparts.cons hpart,
          List.forall_mem_cons.mpr ⟨hp, hall⟩⟩
      · exact .inr ⟨p :: before, q, after, rfl, List.forall_mem_cons.mpr ⟨hp, hbefore⟩, hq⟩
    · exact .inr ⟨[], p, pairs, rfl, by simp, hp⟩

private theorem exists_relocateBatches_eq_ok_iff {r : Registry}
    {pairs : List (FragmentId × List Diagnostic)} :
    (∃ out, relocateBatches r pairs = .ok out) ↔ ∀ p ∈ pairs, r.Registers p.1 := by
  rcases registered_or_exists_first r pairs with
    ⟨parts, hparts, hall⟩ | ⟨before, p, after, rfl, hbefore, hp⟩
  · exact iff_of_true ⟨_, relocateBatches_eq_ok hparts⟩ hall
  · rw [relocateBatches_eq_error hbefore hp after]
    refine iff_of_false ?_ fun hall ↦ hp (hall p (by simp))
    rintro ⟨out, hout⟩
    cases hout

private theorem relocateBatches_eq_ok_iff {r : Registry}
    {pairs : List (FragmentId × List Diagnostic)}
    {out : List Diagnostic} : relocateBatches r pairs = .ok out ↔ ∃ parts,
      List.Forall₂ (fun p part ↦ relocateBatches r [p] = .ok part) pairs parts ∧
        out = parts.flatten := by
  constructor
  · intro h
    rcases registered_or_exists_first r pairs with
      ⟨parts, hparts, -⟩ | ⟨before, p, after, rfl, hbefore, hp⟩
    · rw [relocateBatches_eq_ok hparts] at h
      exact ⟨parts, hparts, (Except.ok.inj h).symm⟩
    · rw [relocateBatches_eq_error hbefore hp after] at h
      cases h
  · rintro ⟨parts, hparts, rfl⟩
    exact relocateBatches_eq_ok hparts

private theorem relocateBatches_eq_error_iff {r : Registry}
    {pairs : List (FragmentId × List Diagnostic)}
    {e : RelocationError} : relocateBatches r pairs = .error e ↔ ∃ before p after,
      pairs = before ++ p :: after ∧ (∀ q ∈ before, r.Registers q.1) ∧ ¬r.Registers p.1 ∧
        e = .registry (r.notFound p.1) := by
  constructor
  · intro h
    rcases registered_or_exists_first r pairs with
      ⟨parts, hparts, -⟩ | ⟨before, p, after, rfl, hbefore, hp⟩
    · rw [relocateBatches_eq_ok hparts] at h
      cases h
    · rw [relocateBatches_eq_error hbefore hp after] at h
      exact ⟨before, p, after, rfl, hbefore, hp, (Except.error.inj h).symm⟩
  · rintro ⟨before, p, after, rfl, hbefore, hp, rfl⟩
    exact relocateBatches_eq_error hbefore hp after

/-- Lists that correspond still do when both are paired with one further list. -/
private theorem forall₂_zip {α β γ : Type} {R : α → β → Prop} {as : List α} {bs : List β}
    (h : List.Forall₂ R as bs) (cs : List γ) :
    List.Forall₂ (fun p q ↦ R p.1 q.1 ∧ p.2 = q.2) (as.zip cs) (bs.zip cs) := by
  induction h generalizing cs with
  | nil => exact .nil
  | cons hab _ ih =>
    cases cs with
    | nil => exact .nil
    | cons c cs => exact .cons ⟨hab, rfl⟩ (ih cs)

/-- Where an extraction is the entry of its document, batches in the order of its sources are
relocated alike by their places and by the identities of the sources. -/
theorem exists_relocate_relocateBatches {d : Document} {o : Selection} {name : String}
    {r : Registry} (h : r.maps? name = some (d.extract o name).maps)
    {batches : List (List Diagnostic)}
    (hlength : batches.length = (d.extract o name).sources.length) :
    ∃ out, relocate r name batches = .ok out ∧
      relocateBatches r (((d.extract o name).sources.map (·.id)).zip batches) = .ok out := by
  have hmaps : (d.extract o name).maps.length = batches.length := by
    rw [hlength, Extraction.maps, Extraction.sources, List.length_map, List.length_map]
  refine ⟨_, relocate_of_maps? h hmaps, ?_⟩
  have hfind : List.Forall₂ (fun id map ↦ r.find id = .ok map)
      ((d.extract o name).sources.map (·.id)) (d.extract o name).maps := by
    have heq := Document.map_find_sources h
    rw [← List.forall₂_eq_eq_eq, List.forall₂_map_left_iff, List.forall₂_map_right_iff] at heq
    exact List.forall₂_map_left_iff.mpr heq
  rw [List.flatMap_def]
  apply relocateBatches_eq_ok
  rw [List.forall₂_map_right_iff]
  refine (forall₂_zip hfind batches).imp ?_
  rintro ⟨id, batch⟩ ⟨map, batch'⟩ ⟨hmap, rfl⟩
  exact relocateBatches_singleton_eq_ok_iff.mpr ⟨map, hmap, rfl⟩

/-- As long as an extraction is the entry of its document, batches in the order of its sources are
relocated alike by their places and by the identities of the sources. In general batches given with
identities are relocated when all of these are registered, and come to what each of them comes to
alone; otherwise the first that is not registered is the error. -/
theorem relocateBatches_spec :
    (∀ (r : Registry) (o : Selection) (name : String) (d : Document)
        (changes : List RegistryChange), (∀ c ∈ changes, c.document ≠ name) →
      let e := (r.extractDocument o name d).1
      let r' := changes.foldl RegistryChange.apply (r.extractDocument o name d).2
      ∀ batches, batches.length = e.sources.length →
        ∃ out, relocate r' name batches = .ok out ∧
          relocateBatches r' ((e.sources.map (·.id)).zip batches) = .ok out) ∧
      ∀ (r : Registry) (pairs : List (FragmentId × List Diagnostic)),
        ((∃ out, relocateBatches r pairs = .ok out) ↔ ∀ p ∈ pairs, r.Registers p.1) ∧
          (∀ out, relocateBatches r pairs = .ok out ↔ ∃ parts,
            List.Forall₂ (fun p part ↦ relocateBatches r [p] = .ok part) pairs parts ∧
              out = parts.flatten) ∧
          (∀ e, relocateBatches r pairs = .error e ↔ ∃ before p after,
            pairs = before ++ p :: after ∧ (∀ q ∈ before, r.Registers q.1) ∧
              ¬r.Registers p.1 ∧ e = .registry (r.notFound p.1)) ∧
          ∀ id batch part, relocateBatches r [(id, batch)] = .ok part ↔
            ∃ map, r.find id = .ok map ∧ part = map.moveBatch batch := by
  constructor
  · intro r o name d changes hchanges
    simp only [Registry.extractDocument_eq]
    intro batches hlength
    apply exists_relocate_relocateBatches _ hlength
    rw [Registry.maps?_foldl_apply_of_ne _ hchanges, Registry.maps?_put]
  · intro r pairs
    exact ⟨exists_relocateBatches_eq_ok_iff, fun out ↦ relocateBatches_eq_ok_iff,
      fun e ↦ relocateBatches_eq_error_iff, fun id batch part ↦ relocateBatches_singleton_eq_ok_iff⟩

/-- The one source of an extraction that leaves the block before it out, after another document was
reset: its number is not its place. -/
theorem relocateBatches_spec_markedText :
    let r := [RegistryChange.reset "other.md"].foldl RegistryChange.apply
      (Registry.empty.extract { skipMarked := true } "doc.md" Document.markedText).2
    ∃ out, relocate r "doc.md" [[{ line := 1, column := 0 }]] = .ok out ∧
      relocateBatches r [(⟨"doc.md", 1⟩, [{ line := 1, column := 0 }])] = .ok out := by
  have hids : (Registry.empty.extractDocument { skipMarked := true } "doc.md"
      (.ofText Document.markedText)).1.sources.map (·.id) = [⟨"doc.md", 1⟩] := by
    decide +kernel
  have hchanges : ∀ c ∈ [RegistryChange.reset "other.md"], c.document ≠ "doc.md" :=
    List.forall_mem_singleton.mpr (by decide)
  have hlength := congrArg List.length hids
  rw [List.length_map] at hlength
  have h := relocateBatches_spec.1 Registry.empty { skipMarked := true } "doc.md"
    (.ofText Document.markedText) [.reset "other.md"] hchanges [[{ line := 1, column := 0 }]] hlength.symm
  rw [hids] at h
  exact h

end FencedCode
