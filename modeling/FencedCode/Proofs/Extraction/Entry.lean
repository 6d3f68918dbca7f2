import FencedCode.Proofs.Extraction.Numbering

/-!
# The entry of a document after an extraction

The entry has one map for each source, in the same order and under the same identity, so that the
place of a source and its identity lead to one map. What was registered before has no influence on
the entry, and the entries of other documents stay as they are.
-/

namespace FencedCode

/-- The name of a source shows its number. -/
theorem FragmentId.ordinal_eq_of_fileName_eq {i j : FragmentId} {lang lang' : String}
    (hdocument : i.document = j.document) (h : i.fileName lang = j.fileName lang') :
    i.ordinal = j.ordinal := by
  have hlists := congrArg String.toList h
  simp only [fileName, hdocument, String.toList_append, List.append_assoc] at hlists
  have hrest := List.append_cancel_left (List.append_cancel_left hlists)
  -- what follows a number in a name is a full stop, where its digits end
  have hdigits : ∀ (n : Nat) (rest : List Char),
      ((toString n).toList ++ (".".toList ++ rest)).takeWhile Char.isDigit =
        Nat.toDigits 10 n := by
    intro n rest
    rw [Nat.toString_eq_repr, Nat.toList_repr, List.takeWhile_append_of_pos]
    · exact List.append_nil _
    · exact fun c hc ↦ Nat.isDigit_of_mem_toDigits (by decide) (by decide) hc
  have hnumbers := congrArg (List.takeWhile Char.isDigit) hrest
  rw [hdigits, hdigits] at hnumbers
  calc
    i.ordinal = Nat.ofDigitChars 10 (Nat.toDigits 10 i.ordinal) 0 :=
      Nat.ofDigitChars_ten_toDigits.symm
    _ = Nat.ofDigitChars 10 (Nat.toDigits 10 j.ordinal) 0 := by rw [hnumbers]
    _ = j.ordinal := Nat.ofDigitChars_ten_toDigits

namespace Document

variable (d : Document) (o : Selection) (name : String)

private theorem map_id_sources_sublist :
    ((d.extract o name).sources.map (·.id)).Sublist
      ((List.range (d.root.preorder.countP (·.isFragment o))).map (⟨name, ·⟩)) := by
  rw [extract_eq_ofCandidates]
  exact (Extraction.map_id_sources_ofCandidates_sublist _ _).trans
    (map_id_candidates_sublist o name _)

/-- Every fragment is reported as a source or as a failure or left out, and none is two of that. -/
theorem map_id_perm :
    ((d.extract o name).sources.map (·.id) ++ (d.extract o name).failures.map (·.id) ++
        leftOutIds o name d.root.preorder).Perm
      ((List.range (d.root.preorder.countP (·.isFragment o))).map (⟨name, ·⟩)) := by
  rw [extract_eq_ofCandidates]
  exact ((Extraction.map_id_ofCandidates_perm _ _).append_right _).trans
    (map_id_candidates_append_leftOutIds_perm o name _)

/-- The sources of a document have its name and ascending numbers. -/
theorem ordinals_sources :
    (∀ s ∈ (d.extract o name).sources, s.id.document = name) ∧
      ((d.extract o name).sources.map (·.id.ordinal)).Pairwise (· < ·) := by
  have hsub := d.map_id_sources_sublist o name
  constructor
  · intro s hs
    obtain ⟨k, -, hk⟩ := List.mem_map.mp (hsub.mem (List.mem_map_of_mem hs))
    rw [← hk]
  · have hordinals := hsub.map FragmentId.ordinal
    rw [List.map_map, List.map_map,
      show FragmentId.ordinal ∘ (FragmentId.mk name ·) = id from rfl, List.map_id] at hordinals
    exact List.pairwise_lt_range.sublist hordinals

private theorem nodup_map_id_sources : ((d.extract o name).sources.map (·.id)).Nodup := by
  refine List.Nodup.sublist (d.map_id_sources_sublist o name) ?_
  exact List.nodup_range.map fun i j h ↦ (FragmentId.mk.inj h).2

/-- The sources of a document differ in their names. -/
theorem nodup_map_fileName_sources : ((d.extract o name).sources.map (·.fileName)).Nodup := by
  obtain ⟨hdocument, hordinals⟩ := d.ordinals_sources o name
  have hnamed : ∀ s ∈ (d.extract o name).sources, s.fileName = s.id.fileName s.lang := by
    intro s hs
    obtain ⟨b, hb, rfl⟩ := List.mem_map.mp hs
    obtain ⟨c, -, hc⟩ := exists_candidate_of_mem_blocks hb
    exact Candidate.fileName_of_block? hc
  rw [List.Nodup, List.pairwise_map]
  rw [List.pairwise_map] at hordinals
  refine hordinals.imp_of_mem ?_
  intro s t hs ht hlt heq
  rw [hnamed s hs, hnamed t ht] at heq
  have hsame := FragmentId.ordinal_eq_of_fileName_eq ((hdocument s hs).trans (hdocument t ht).symm)
    heq
  exact absurd hsame (Nat.ne_of_lt hlt)

private theorem map_id_maps : (d.extract o name).maps.map (·.id) =
    (d.extract o name).sources.map (·.id) := by
  rw [extract_eq_ofCandidates]
  exact Extraction.map_id_maps_ofCandidates _ _

variable {d o name} {r : Registry}

/-- Where an extraction is the entry of its document, the identity of a source leads to its map. -/
theorem map_find_sources (h : r.maps? name = some (d.extract o name).maps) :
    (d.extract o name).sources.map (r.find ·.id) = (d.extract o name).maps.map .ok := by
  have hids := d.map_id_maps o name
  have hnodup := d.nodup_map_id_sources o name
  rw [← hids] at hnodup
  calc
    (d.extract o name).sources.map (r.find ·.id) =
        ((d.extract o name).sources.map (·.id)).map r.find := by rw [List.map_map]; rfl
    _ = (d.extract o name).maps.map (r.find ·.id) := by rw [← hids, List.map_map]; rfl
    _ = (d.extract o name).maps.map .ok := by
      apply List.map_congr_left
      intro map hmap
      have hmem : map.id ∈ (d.extract o name).sources.map (·.id) :=
        hids ▸ List.mem_map_of_mem hmap
      obtain ⟨s, hs, hid⟩ := List.mem_map.mp hmem
      exact Registry.find_of_nodup h hnodup hmap (hid ▸ (d.ordinals_sources o name).1 s hs)

/-- And so does its place among the sources. -/
theorem map_get_sources (h : r.maps? name = some (d.extract o name).maps) :
    (List.range (d.extract o name).sources.length).map (r.get name) =
      (d.extract o name).maps.map .ok := by
  have hlength : (d.extract o name).sources.length = (d.extract o name).maps.length := by
    rw [Extraction.sources, Extraction.maps, List.length_map, List.length_map]
  apply List.ext_getElem
  · rw [List.length_map, List.length_map, List.length_range, hlength]
  · intro i hi hi'
    rw [List.getElem_map, List.getElem_map, List.getElem_range, Registry.get_eq_ok_iff]
    exact ⟨_, h, List.getElem?_eq_getElem _⟩

end Document

namespace Registry

/-- To extract a document is to write the maps of its sources as the entry of its name. -/
theorem extractDocument_eq (r : Registry) (o : Selection) (name : String) (d : Document) :
    r.extractDocument o name d = (d.extract o name, r.put name (d.extract o name).maps) := by
  rw [extractDocument, enter_eq_put]

/-- An extraction leaves the maps of its sources as the entry of its document, to be found by place
or identity. The sources are in ascending order of their numbers and differ in identities and names;
with the failures and the fragments left out they use up the numbers from zero on, each once. No
other entry changes, and neither the extraction nor the entry depends on what was registered: to
extract twice is to extract once. -/
theorem extract_corresponds (r : Registry) (o : Selection) (name : String) (d : Document) :
    let e := (r.extractDocument o name d).1
    let r' := (r.extractDocument o name d).2
    let nodes := d.root.preorder
    (r'.maps name = .ok e.maps ∧ e.maps.map (·.id) = e.sources.map (·.id) ∧
        e.sources.map (r'.find ·.id) = e.maps.map .ok ∧
        (List.range e.sources.length).map (r'.get name) = e.maps.map .ok) ∧
      ((e.sources.map (·.id.ordinal)).Pairwise (· < ·) ∧ (e.sources.map (·.id)).Nodup ∧
        (e.sources.map (·.fileName)).Nodup) ∧
      (e.sources.map (·.id) ++ e.failures.map (·.id) ++ leftOutIds o name nodes).Perm
        ((List.range (nodes.countP (·.isFragment o))).map (⟨name, ·⟩)) ∧
      (∀ other, other ≠ name → r'.maps? other = r.maps? other) ∧
      (∀ before : Registry, (before.extractDocument o name d).1 = e ∧
        (before.extractDocument o name d).2.maps? name = r'.maps? name) ∧
      (r'.extractDocument o name d).2 = r' := by
  simp only [extractDocument_eq]
  have hentry := r.maps?_put name (d.extract o name).maps
  refine ⟨⟨maps_eq_ok_iff.mpr hentry, d.map_id_maps o name,
      Document.map_find_sources hentry, Document.map_get_sources hentry⟩,
    ⟨(d.ordinals_sources o name).2, d.nodup_map_id_sources o name,
      d.nodup_map_fileName_sources o name⟩,
    d.map_id_perm o name, ?_, ?_, ?_⟩
  · intro other hne
    exact r.maps?_put_of_ne hne _
  · intro before
    exact ⟨trivial, by rw [maps?_put, maps?_put]⟩
  · exact r.put_put name _ _

/-- An extraction that leaves a block out, beside an entry of another document. -/
theorem extract_corresponds_markedText :
    "other.md" ≠ "doc.md" ∧ ((empty.reset "other.md").extract { skipMarked := true } "doc.md"
      Document.markedText).2.maps? "other.md" = some [] := by
  have hothers := (extract_corresponds (empty.reset "other.md") { skipMarked := true } "doc.md"
    (.ofText Document.markedText)).2.2.2.1
  have hne : "other.md" ≠ "doc.md" := by decide
  exact ⟨hne, (hothers "other.md" hne).trans (empty.maps?_reset "other.md")⟩

end Registry

end FencedCode
