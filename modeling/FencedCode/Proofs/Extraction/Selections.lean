import FencedCode.Proofs.Extraction.Numbering

/-!
# Extractions under different selections

What a selection leaves out makes no difference to what it keeps. The fragments kept have the
sources and the maps that they have when nothing is left out, apart from their identities: these
show how many accepted blocks came before and are the one thing that the selection has an influence
on.
-/

namespace FencedCode

/-- What is selected for the last node comes after what is selected for those before it. -/
private theorem inDocumentOrder_concat {β : Type} (f : List Node → Node → Option β) (before : List Node)
    (n : Node) :
    inDocumentOrder f (before ++ [n]) = inDocumentOrder f before ++ (f before n).toList := by
  rw [inDocumentOrder, inDocumentOrder, List.zipIdx_append, List.filterMap_append]
  congr 1
  · apply List.filterMap_congr
    rintro ⟨m, k⟩ hmem
    have hlt := (List.mem_zipIdx' hmem).1
    dsimp only
    rw [List.take_append_of_le_length (by omega)]
  · rw [List.zipIdx_singleton, List.filterMap_cons, Nat.zero_add]
    dsimp only
    rw [List.take_left]
    cases f before n with
    | none => rfl
    | some b => rfl

/-- The code blocks with a language, in document order, each with the run of directives before
it. -/
def taggedBlocks (ns : List Node) : List (Node × List Directive) :=
  inDocumentOrder (fun before n ↦ if n.isTagged then some (n, directiveRun before) else none) ns

private theorem taggedBlocks_concat (before : List Node) (n : Node) : taggedBlocks (before ++ [n]) =
    taggedBlocks before ++ if n.isTagged then [(n, directiveRun before)] else [] := by
  rw [taggedBlocks, inDocumentOrder_concat]
  cases n.isTagged with
  | false => rfl
  | true => rfl

private theorem length_taggedBlocks (ns : List Node) :
    (taggedBlocks ns).length = ns.countP (·.isTagged) := by
  induction ns using List.reverseRecOn with
  | nil => rfl
  | append_singleton ns n ih =>
    rw [taggedBlocks_concat, List.length_append, ih, List.countP_append, List.countP_singleton]
    cases n.isTagged with
    | false => rfl
    | true => rfl

namespace Candidate

/-- What a candidate is made of apart from its identity. -/
def parts (c : Candidate) : Node × List Directive := (c.node, c.directives)

/-- The candidate that a code block makes with the run of directives before it, when `number` others
come before. -/
def ofBlock (document : String) (number : Nat) (n : Node) (run : List Directive) : Candidate :=
  ⟨⟨document, number⟩, n, if holdsSkipMark run then [] else run⟩

end Candidate

namespace Selection

/-- Whether a selection keeps a code block that comes after a run of directives: its language is
accepted, and it is not left out as marked to be skipped. -/
def keeps (o : Selection) (n : Node) (run : List Directive) : Bool :=
  n.languageTag?.any o.accepts && !(o.skipMarked && holdsSkipMark run)

/-- Whether a selection keeps the block that has a number among those with a language. -/
def keepsNumber (o : Selection) (ns : List Node) (number : Nat) : Bool :=
  (taggedBlocks ns)[number]?.any fun (n, run) ↦ o.keeps n run

/-- The empty selection keeps every code block with a language. -/
theorem keeps_empty {n : Node} (h : n.isTagged = true) (run : List Directive) :
    keeps {} n run = true := by
  obtain ⟨tag, htag⟩ := Option.isSome_iff_exists.mp (Bool.and_eq_true_iff.mp h).2
  rw [keeps, htag]
  rfl

end Selection

/-- A node is a candidate when it is a code block with a language that the selection keeps. -/
private theorem candidateAfter?_eq (o : Selection) (document : String) (before : List Node) (n : Node) :
    candidateAfter? o document before n =
      if n.isTagged && o.keeps n (directiveRun before) then
        some (.ofBlock document (before.countP (·.isFragment o)) n (directiveRun before))
      else none := by
  have hkept : (n.isFragment o && !(o.skipMarked && holdsSkipMark (directiveRun before))) =
      (n.isTagged && o.keeps n (directiveRun before)) := by
    rw [Node.isFragment, Node.isTagged, Selection.keeps]
    cases n.languageTag? with
    | none => simp
    | some tag => simp [Bool.and_assoc]
  rw [candidateAfter?, hkept]
  rfl

/-- The candidates under a selection are made of the blocks that it keeps. -/
private theorem map_parts_declaredCandidates (o : Selection) (document : String) (ns : List Node) :
    (declaredCandidates o document ns).map Candidate.parts =
      ((taggedBlocks ns).filter fun (n, run) ↦ o.keeps n run).map fun (n, run) ↦
        (Candidate.ofBlock document 0 n run).parts := by
  rw [declaredCandidates, taggedBlocks, inDocumentOrder, List.filter_filterMap,
    List.map_filterMap, List.map_filterMap]
  apply List.filterMap_congr
  rintro ⟨n, k⟩ -
  dsimp only
  rw [candidateAfter?_eq]
  cases n.isTagged with
  | false => rfl
  | true =>
    simp only [Bool.true_and, if_true, Option.filter_some]
    cases o.keeps n (directiveRun (ns.take k)) with
    | false => rfl
    | true => rfl

/-- Under the empty selection the candidates are the code blocks with a language, numbered from zero
on. -/
theorem declaredCandidates_empty (document : String) (ns : List Node) :
    declaredCandidates {} document ns =
      (taggedBlocks ns).zipIdx.map fun ((n, run), k) ↦ .ofBlock document k n run := by
  have htagged : (Node.isFragment {} ·) = Node.isTagged := by
    funext n
    rw [Node.isFragment, Node.isTagged]
    cases n.languageTag? <;> rfl
  change inDocumentOrder (candidateAfter? {} document) ns = _
  induction ns using List.reverseRecOn with
  | nil => rfl
  | append_singleton ns n ih =>
    rw [inDocumentOrder_concat, ih, taggedBlocks_concat, List.zipIdx_append, List.map_append,
      candidateAfter?_eq, htagged, ← length_taggedBlocks]
    cases hn : n.isTagged with
    | false => rfl
    | true =>
      rw [Selection.keeps_empty hn, Nat.zero_add]
      rfl

/-- The candidates under a selection are those that it keeps of the candidates under the empty one,
with the same directives. -/
theorem map_parts_declaredCandidates_eq_filter (o : Selection) (document other : String)
    (ns : List Node) : (declaredCandidates o document ns).map Candidate.parts =
      ((declaredCandidates {} other ns).filter (o.keepsNumber ns ·.id.ordinal)).map
        Candidate.parts := by
  have hkept : ∀ a ∈ (taggedBlocks ns).zipIdx, o.keepsNumber ns a.2 = o.keeps a.1.1 a.1.2 := by
    rintro ⟨⟨n, run⟩, k⟩ hmem
    rw [Selection.keepsNumber, List.mem_zipIdx_iff_getElem?.mp hmem]
    rfl
  calc
    (declaredCandidates o document ns).map Candidate.parts =
        ((taggedBlocks ns).filter fun (n, run) ↦ o.keeps n run).map fun (n, run) ↦
          (Candidate.ofBlock document 0 n run).parts := map_parts_declaredCandidates o document ns
    _ = (((taggedBlocks ns).zipIdx.filter fun a ↦ o.keeps a.1.1 a.1.2).map Prod.fst).map
          fun (n, run) ↦ (Candidate.ofBlock document 0 n run).parts := by
      conv_lhs => rw [← List.zipIdx_map_fst 0 (taggedBlocks ns), List.filter_map]
      rfl
    _ = _ := by
      rw [declaredCandidates_empty, List.filter_map, List.map_map, List.map_map]
      congr 1
      exact List.filter_congr fun a ha ↦ (hkept a ha).symm

/-- What a source block holds apart from its identity: the language and the text of the source, and
the map with the lines on its two sides. -/
def SourceBlock.contents (b : SourceBlock) :
    (String × List Char) × (PositionMap × LineIndex × LineIndex) :=
  ((b.source.lang, b.source.text), (b.map.map, b.map.generated, b.map.host))

/-- The identity of a fragment has no influence on its source, apart from the source's name. -/
theorem SourceBlock.map_contents_ofNode (x : LineIndex) (n : Node) (ds : List Directive)
    (id id' : FragmentId) :
    (SourceBlock.ofNode x n ds id).map contents = (SourceBlock.ofNode x n ds id').map contents := by
  unfold SourceBlock.ofNode
  cases n.languageTag? with
  | none => rfl
  | some tag =>
    refine map_bind_congr fun comments ↦ ?_
    refine map_bind_congr fun body ↦ ?_
    refine map_bind_congr fun content ↦ ?_
    refine map_bind_congr fun filled ↦ ?_
    exact map_bind_congr fun draft ↦ rfl

namespace Extraction

/-- What candidates become, apart from their identities. -/
def outcomes (x : LineIndex) (cs : List Candidate) :
    List (Except SourceError ((String × List Char) × (PositionMap × LineIndex × LineIndex))) :=
  cs.map fun c ↦ (c.outcome x).map SourceBlock.contents

/-- Candidates with the same parts become the same, whatever their identities. -/
private theorem outcomes_eq (x : LineIndex) {cs cs' : List Candidate}
    (h : cs.map Candidate.parts = cs'.map Candidate.parts) : outcomes x cs = outcomes x cs' := by
  have hparts : ∀ cs, outcomes x cs = (cs.map Candidate.parts).map fun (n, ds) ↦
      (SourceBlock.ofNode x n ds ⟨"", 0⟩).map SourceBlock.contents := by
    intro cs
    rw [outcomes, List.map_map]
    exact List.map_congr_left fun c _ ↦ SourceBlock.map_contents_ofNode x _ _ _ _
  rw [hparts, hparts, h]

private theorem map_contents_blocks (x : LineIndex) (cs : List Candidate) :
    (ofCandidates x cs).blocks.map SourceBlock.contents =
      (outcomes x cs).filterMap Except.toOption := by
  rw [blocks_ofCandidates, List.map_filterMap, outcomes, List.filterMap_map]
  apply List.filterMap_congr
  intro c _
  rw [Candidate.block?, Function.comp_apply]
  cases c.outcome x <;> rfl

private theorem map_error_failures (x : LineIndex) (cs : List Candidate) :
    (ofCandidates x cs).failures.map (·.error) =
      (outcomes x cs).filterMap fun outcome ↦
        match outcome with
        | .ok _ => none
        | .error error => some error := by
  rw [failures_ofCandidates, List.map_filterMap, outcomes, List.filterMap_map]
  apply List.filterMap_congr
  intro c _
  rw [Candidate.failure?, Function.comp_apply]
  cases c.outcome x <;> rfl

/-- To choose among candidates is to choose among what is reported of them. -/
theorem blocks_ofCandidates_filter (x : LineIndex) (p : FragmentId → Bool) (cs : List Candidate) :
    (ofCandidates x (cs.filter (p ·.id))).blocks =
      (ofCandidates x cs).blocks.filter (p ·.source.id) := by
  rw [blocks_ofCandidates, blocks_ofCandidates, List.filterMap_filter, List.filter_filterMap]
  apply List.filterMap_congr
  intro c _
  cases hb : c.block? x with
  | none => simp
  | some b => rw [Option.filter_some, (Candidate.id_of_block? hb).1]

private theorem failures_ofCandidates_filter (x : LineIndex) (p : FragmentId → Bool)
    (cs : List Candidate) : (ofCandidates x (cs.filter (p ·.id))).failures =
      (ofCandidates x cs).failures.filter (p ·.id) := by
  rw [failures_ofCandidates, failures_ofCandidates, List.filterMap_filter, List.filter_filterMap]
  apply List.filterMap_congr
  intro c _
  rw [Candidate.failure?]
  cases c.outcome x with
  | ok b => simp
  | error e => rfl

end Extraction

namespace Document

variable (d : Document) (o : Selection) (name other : String)

/-- The blocks under a selection are those among the blocks of all languages that the selection
keeps, apart from their identities. -/
theorem map_contents_blocks_extract :
    (d.extract o name).blocks.map SourceBlock.contents =
      ((d.extract {} other).blocks.filter
        (o.keepsNumber d.root.preorder ·.source.id.ordinal)).map SourceBlock.contents := by
  rw [extract_eq_ofCandidates, extract_eq_ofCandidates,
    ← Extraction.blocks_ofCandidates_filter _ (o.keepsNumber d.root.preorder ·.ordinal),
    Extraction.map_contents_blocks, Extraction.map_contents_blocks,
    Extraction.outcomes_eq _ (map_parts_declaredCandidates_eq_filter o name other _)]

private theorem map_error_failures_extract :
    (d.extract o name).failures.map (·.error) =
      ((d.extract {} other).failures.filter
        (o.keepsNumber d.root.preorder ·.id.ordinal)).map (·.error) := by
  rw [extract_eq_ofCandidates, extract_eq_ofCandidates,
    ← Extraction.failures_ofCandidates_filter _ (o.keepsNumber d.root.preorder ·.ordinal),
    Extraction.map_error_failures, Extraction.map_error_failures,
    Extraction.outcomes_eq _ (map_parts_declaredCandidates_eq_filter o name other _)]

private theorem sources_extract_eq_filter :
    (d.extract o name).sources.map (fun s ↦ (s.lang, s.text)) =
      ((d.extract {} other).sources.filter
        (o.keepsNumber d.root.preorder ·.id.ordinal)).map fun s ↦ (s.lang, s.text) := by
  have h := congrArg (List.map Prod.fst) (d.map_contents_blocks_extract o name other)
  rw [List.map_map, List.map_map] at h
  rw [Extraction.sources, Extraction.sources, List.filter_map, List.map_map, List.map_map]
  exact h

/-- The maps of an extraction are found among its blocks by their own identities. -/
theorem maps_filter (p : FragmentId → Bool) :
    (d.extract o name).maps.filter (p ·.id) =
      ((d.extract o name).blocks.filter (p ·.source.id)).map (·.map) := by
  rw [Extraction.maps, List.filter_map, extract_eq_ofCandidates, Extraction.blocks_ofCandidates]
  congr 1
  apply List.filter_congr
  intro b hb
  obtain ⟨c, -, hc⟩ := List.mem_filterMap.mp hb
  obtain ⟨hsource, hmap⟩ := Candidate.id_of_block? hc
  rw [Function.comp_apply, hsource, hmap]

private theorem maps_extract_eq_filter :
    (d.extract o name).maps.map (fun m ↦ (m.map, m.generated, m.host)) =
      ((d.extract {} other).maps.filter
        (o.keepsNumber d.root.preorder ·.id.ordinal)).map fun m ↦
          (m.map, m.generated, m.host) := by
  have h := congrArg (List.map Prod.snd) (d.map_contents_blocks_extract o name other)
  rw [List.map_map, List.map_map] at h
  rw [d.maps_filter {} other (o.keepsNumber d.root.preorder ·.ordinal), Extraction.maps,
    List.map_map, List.map_map]
  exact h

end Document

/-- Selecting commutes with extraction. The sources, the registered maps and the failures under a
selection are those that the selection keeps of all, when nothing is left out, in the same order
and apart from their identities; so is what each fragment is made of, its directives among it.
Without a selection the fragments are the code blocks with a language, numbered from zero on, and
a fragment is kept or not as the block with its number is. -/
theorem Registry.extract_eq_filter (r before : Registry) (o : Selection) (name other : String)
    (d : Document) :
    let nodes := d.root.preorder
    let kept := fun id : FragmentId ↦ o.keepsNumber nodes id.ordinal
    let selected := r.extractDocument o name d
    let all := before.extractDocument {} other d
    selected.1.sources.map (fun s ↦ (s.lang, s.text)) =
        (all.1.sources.filter (kept ·.id)).map (fun s ↦ (s.lang, s.text)) ∧
      (∃ maps allMaps, selected.2.maps name = .ok maps ∧ all.2.maps other = .ok allMaps ∧
        maps.map (fun m ↦ (m.map, m.generated, m.host)) =
          (allMaps.filter (kept ·.id)).map fun m ↦ (m.map, m.generated, m.host)) ∧
      selected.1.failures.map (·.error) = (all.1.failures.filter (kept ·.id)).map (·.error) ∧
      (declaredCandidates o name nodes).map Candidate.parts =
        ((declaredCandidates {} other nodes).filter (kept ·.id)).map Candidate.parts ∧
      declaredCandidates {} other nodes =
        (taggedBlocks nodes).zipIdx.map fun ((n, run), k) ↦ .ofBlock other k n run := by
  intro nodes kept selected all
  have hmaps : selected.2.maps name = .ok (d.extract o name).maps :=
    maps_eq_ok_iff.mpr (maps?_enter r name _)
  have hallMaps : all.2.maps other = .ok (d.extract {} other).maps :=
    maps_eq_ok_iff.mpr (maps?_enter before other _)
  refine ⟨d.sources_extract_eq_filter o name other,
    ⟨_, _, hmaps, hallMaps, d.maps_extract_eq_filter o name other⟩,
    d.map_error_failures_extract o name other,
    map_parts_declaredCandidates_eq_filter o name other nodes,
    declaredCandidates_empty other nodes⟩

end FencedCode
