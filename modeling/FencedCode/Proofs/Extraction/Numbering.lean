import FencedCode.Proofs.Extraction.Outcomes
import FencedCode.Proofs.Fragment.Source

/-!
# How fragments are numbered

The number of a fragment is that of the fragments before it: the accepted code blocks, among them
those that are left out as marked to be skipped and those that have no source. Blocks in a language
that is not accepted are not counted, so the numbers depend on which languages are. The numbers of
what an extraction reports and of what it leaves out are those from zero on, each once.
-/

namespace FencedCode

section Selecting

variable {α β : Type}

/-- What two functions select between them, when each element goes to one of them alone. -/
private theorem filterMap_append_perm {f g h : α → Option β} {l : List α}
    (hl : ∀ a ∈ l, (f a = h a ∧ g a = none) ∨ (f a = none ∧ g a = h a)) :
    (l.filterMap f ++ l.filterMap g).Perm (l.filterMap h) := by
  induction l with
  | nil => exact List.Perm.refl []
  | cons a l ih =>
    obtain ⟨ha, hrest⟩ := List.forall_mem_cons.mp hl
    have hperm := ih hrest
    rw [List.filterMap_cons, List.filterMap_cons, List.filterMap_cons]
    rcases ha with ⟨hf, hg⟩ | ⟨hf, hg⟩
    · rw [hf, hg]
      cases h a with
      | none => exact hperm
      | some b => exact hperm.cons b
    · rw [hf, hg]
      cases h a with
      | none => exact hperm
      | some b => exact List.perm_middle.trans (hperm.cons b)

/-- A function that selects less than another selects in the same order. -/
private theorem filterMap_sublist_filterMap {f g : α → Option β} {l : List α}
    (hl : ∀ a ∈ l, f a = g a ∨ f a = none) : (l.filterMap f).Sublist (l.filterMap g) := by
  induction l with
  | nil => exact List.Sublist.refl []
  | cons a l ih =>
    obtain ⟨ha, hrest⟩ := List.forall_mem_cons.mp hl
    have hsub := ih hrest
    rw [List.filterMap_cons, List.filterMap_cons]
    rcases ha with hf | hf
    · rw [hf]
      cases g a with
      | none => exact hsub
      | some b => exact hsub.cons_cons b
    · rw [hf]
      cases g a with
      | none => exact hsub
      | some b => exact hsub.cons b

/-- What is selected of a list whose elements are known with their places, place by place. -/
private theorem filterMap_zipIdx (f : α × Nat → Option β) (l : List α) :
    l.zipIdx.filterMap f = (List.range l.length).filterMap fun k ↦ l[k]?.bind fun a ↦ f (a, k) := by
  induction l generalizing f with
  | nil => rfl
  | cons a l ih =>
    rw [List.zipIdx_cons, Nat.zero_add, List.zipIdx_succ, List.length_cons,
      List.range_succ_eq_map, List.filterMap_cons, List.filterMap_cons, List.filterMap_map,
      List.filterMap_map, ih]
    rfl

/-- Elements that pass a test, each numbered by how many have passed before it, are numbered one
after the other. -/
private theorem filterMap_zipIdx_countP (p : α → Bool) (f : Nat → β) (before l : List α) :
    l.zipIdx.filterMap (fun (a, k) ↦
        if p a then some (f ((before ++ l.take k).countP p)) else none) =
      (List.range' (before.countP p) (l.countP p)).map f := by
  -- the elements passed so far are carried along, so that the places start anew at each of them
  induction l generalizing before with
  | nil => rfl
  | cons a l ih =>
    have hrest := ih (before ++ [a])
    simp only [List.append_assoc, List.singleton_append, List.countP_append,
      List.countP_singleton] at hrest
    rw [List.zipIdx_cons, Nat.zero_add, List.zipIdx_succ, List.filterMap_cons, List.filterMap_map]
    simp only [List.take_zero, List.append_nil, Function.comp_def, List.take_succ_cons,
      List.countP_append, hrest]
    cases hp : p a with
    | false => simp [hp]
    | true => simp [hp, List.range'_succ]

/-- A test that passes what another one passes counts as many only if it passes all of that. -/
private theorem countP_eq_countP_iff {p q : α → Bool} (hpq : ∀ a, p a = true → q a = true)
    (l : List α) : l.countP p = l.countP q ↔ ∀ a ∈ l, q a = true → p a = true := by
  induction l with
  | nil => simp
  | cons a l ih =>
    have hle : l.countP p ≤ l.countP q := List.countP_mono_left fun b _ ↦ hpq b
    rw [List.countP_cons, List.countP_cons, List.forall_mem_cons, ← ih]
    cases hp : p a with
    | true => simp [hpq a hp]
    | false =>
      cases q a with
      | false => simp
      | true =>
        refine iff_of_false ?_ fun h ↦ absurd (h.1 rfl) Bool.false_ne_true
        simp only [if_true, Bool.false_eq_true, if_false]
        omega

end Selecting

/-- What a function of a node and of those before it selects among nodes in document order. -/
def inDocumentOrder {β : Type} (f : List Node → Node → Option β) (ns : List Node) : List β :=
  ns.zipIdx.filterMap fun (n, k) ↦ f (ns.take k) n

private theorem map_inDocumentOrder {β γ : Type} (f : List Node → Node → Option β) (g : β → γ)
    (ns : List Node) :
    (inDocumentOrder f ns).map g = inDocumentOrder (fun before n ↦ (f before n).map g) ns :=
  List.map_filterMap

/-- Whether a node is a code block with a language, accepted or not. -/
def Node.isTagged (n : Node) : Bool := n.kind == .code && n.languageTag?.isSome

private theorem Node.isTagged_of_isFragment {o : Selection} {n : Node} (h : n.isFragment o = true) :
    n.isTagged = true := by
  rw [isFragment, Bool.and_eq_true] at h
  obtain ⟨tag, htag, -⟩ := (Option.any_eq_true _ _).mp h.2
  rw [isTagged, h.1, htag]
  rfl

/-- The identity of a node that comes after the nodes `before`, when it is a fragment. -/
def fragmentId? (o : Selection) (document : String) (before : List Node) (n : Node) :
    Option FragmentId :=
  if n.isFragment o then some ⟨document, before.countP (·.isFragment o)⟩ else none

/-- Whether a fragment after the nodes `before` is left out, being marked to be skipped. -/
def leavesOut (o : Selection) (before : List Node) : Bool :=
  o.skipMarked && holdsSkipMark (directiveRun before)

/-- The identities of the fragments that are left out. -/
def leftOutIds (o : Selection) (document : String) (ns : List Node) : List FragmentId :=
  inDocumentOrder
    (fun before n ↦ if leavesOut o before then fragmentId? o document before n else none) ns

/-- A node that is a candidate has its identity as a fragment. -/
private theorem map_id_candidateAfter? (o : Selection) (document : String) (before : List Node)
    (n : Node) : (candidateAfter? o document before n).map (·.id) =
      if leavesOut o before then none else fragmentId? o document before n := by
  rw [candidateAfter?, fragmentId?, leavesOut]
  cases n.isFragment o with
  | false => simp
  | true =>
    cases o.skipMarked && holdsSkipMark (directiveRun before) with
    | false => rfl
    | true => rfl

/-- The fragments of a document are numbered from zero on. -/
private theorem inDocumentOrder_fragmentId? (o : Selection) (document : String) (ns : List Node) :
    inDocumentOrder (fragmentId? o document) ns =
      (List.range (ns.countP (·.isFragment o))).map (⟨document, ·⟩) := by
  have h := filterMap_zipIdx_countP (·.isFragment o) (FragmentId.mk document) [] ns
  rw [List.range_eq_range']
  exact h

private theorem map_id_declaredCandidates (o : Selection) (document : String) (ns : List Node) :
    (declaredCandidates o document ns).map (·.id) = inDocumentOrder
      (fun before n ↦ if leavesOut o before then none else fragmentId? o document before n) ns := by
  simp only [← map_id_candidateAfter?]
  exact map_inDocumentOrder _ _ _

/-- Every fragment is a candidate or left out, and none is both. -/
theorem map_id_candidates_append_leftOutIds_perm (o : Selection) (document : String)
    (ns : List Node) :
    ((declaredCandidates o document ns).map (·.id) ++ leftOutIds o document ns).Perm
      ((List.range (ns.countP (·.isFragment o))).map (⟨document, ·⟩)) := by
  rw [← inDocumentOrder_fragmentId?, map_id_declaredCandidates]
  apply filterMap_append_perm
  rintro ⟨n, k⟩ -
  dsimp only
  cases leavesOut o (ns.take k) with
  | false => exact .inl ⟨rfl, rfl⟩
  | true => exact .inr ⟨rfl, rfl⟩

/-- Candidates come in the order of their numbers. -/
theorem map_id_candidates_sublist (o : Selection) (document : String) (ns : List Node) :
    ((declaredCandidates o document ns).map (·.id)).Sublist
      ((List.range (ns.countP (·.isFragment o))).map (⟨document, ·⟩)) := by
  rw [← inDocumentOrder_fragmentId?, map_id_declaredCandidates]
  apply filterMap_sublist_filterMap
  rintro ⟨n, k⟩ -
  dsimp only
  cases leavesOut o (ns.take k) with
  | false => exact .inl rfl
  | true => exact .inr rfl

namespace Candidate

/-- The source of a candidate is made of parts. -/
theorem exists_madeOf_of_block? {x : LineIndex} {c : Candidate} {b : SourceBlock}
    (h : c.block? x = some b) :
    ∃ tag body content, SourceBlock.MadeOf x c.node c.directives c.id b tag body content := by
  rw [← SourceBlock.ofNode_eq_ok_iff]
  rw [block?, outcome] at h
  cases hb : SourceBlock.ofNode x c.node c.directives c.id with
  | error e =>
    rw [hb] at h
    cases h
  | ok b' =>
    rw [hb] at h
    rw [show b' = b from Option.some.inj h]

/-- The source of a candidate and its map have the candidate's identity. -/
theorem id_of_block? {x : LineIndex} {c : Candidate} {b : SourceBlock}
    (h : c.block? x = some b) : b.source.id = c.id ∧ b.map.id = c.id := by
  obtain ⟨tag, body, content, hmade⟩ := exists_madeOf_of_block? h
  exact ⟨by rw [hmade.source_eq], by rw [hmade.map_eq]⟩

/-- A source is named by its identity and its language. -/
theorem fileName_of_block? {x : LineIndex} {c : Candidate} {b : SourceBlock}
    (h : c.block? x = some b) : b.source.fileName = b.source.id.fileName b.source.lang := by
  obtain ⟨tag, body, content, hmade⟩ := exists_madeOf_of_block? h
  rw [hmade.source_eq]

/-- A candidate is reported once, as a source or as a failure. -/
theorem map_id_cases (x : LineIndex) (c : Candidate) :
    ((c.block? x).map (·.source.id) = some c.id ∧ (c.failure? x).map (·.id) = none) ∨
      ((c.block? x).map (·.source.id) = none ∧ (c.failure? x).map (·.id) = some c.id) := by
  cases h : c.outcome x with
  | ok b =>
    have hb : c.block? x = some b := by rw [block?, h]; rfl
    left
    rw [hb, failure?, h]
    exact ⟨congrArg some (id_of_block? hb).1, rfl⟩
  | error e =>
    right
    rw [block?, failure?, h]
    exact ⟨rfl, rfl⟩

end Candidate

namespace Extraction

private theorem map_id_sources_ofCandidates (x : LineIndex) (cs : List Candidate) :
    (ofCandidates x cs).sources.map (·.id) =
      cs.filterMap fun c ↦ (c.block? x).map (·.source.id) := by
  rw [sources, blocks_ofCandidates, List.map_map, List.map_filterMap]
  rfl

private theorem map_id_failures_ofCandidates (x : LineIndex) (cs : List Candidate) :
    (ofCandidates x cs).failures.map (·.id) = cs.filterMap fun c ↦ (c.failure? x).map (·.id) := by
  rw [failures_ofCandidates, List.map_filterMap]

/-- Every candidate is reported, and none of them twice. -/
theorem map_id_ofCandidates_perm (x : LineIndex) (cs : List Candidate) :
    ((ofCandidates x cs).sources.map (·.id) ++ (ofCandidates x cs).failures.map (·.id)).Perm
      (cs.map (·.id)) := by
  rw [map_id_sources_ofCandidates, map_id_failures_ofCandidates, ← List.filterMap_eq_map]
  exact filterMap_append_perm fun c _ ↦ c.map_id_cases x

/-- Sources come in the order of their candidates. -/
theorem map_id_sources_ofCandidates_sublist (x : LineIndex) (cs : List Candidate) :
    ((ofCandidates x cs).sources.map (·.id)).Sublist (cs.map (·.id)) := by
  rw [map_id_sources_ofCandidates, ← List.filterMap_eq_map]
  exact filterMap_sublist_filterMap fun c _ ↦ (c.map_id_cases x).imp And.left And.left

/-- The maps of an extraction have the identities of its sources, in the same order. -/
theorem map_id_maps_ofCandidates (x : LineIndex) (cs : List Candidate) :
    (ofCandidates x cs).maps.map (·.id) = (ofCandidates x cs).sources.map (·.id) := by
  rw [maps, sources, List.map_map, List.map_map, blocks_ofCandidates]
  apply List.map_congr_left
  intro b hb
  obtain ⟨c, -, hc⟩ := List.mem_filterMap.mp hb
  obtain ⟨hsource, hmap⟩ := Candidate.id_of_block? hc
  rw [Function.comp_apply, Function.comp_apply, hsource, hmap]

end Extraction

namespace Document

/-- The source made of the node at place `k` in document order, when it is extracted. -/
def sourceAt? (d : Document) (o : Selection) (name : String) (k : Nat) : Option Source :=
  d.root.preorder[k]?.bind fun n ↦
    (candidateAfter? o name (d.root.preorder.take k) n).bind fun c ↦
      (c.block? d.lines).map (·.source)

/-- The sources of a document are those of its nodes in document order. -/
theorem sources_extract (d : Document) (o : Selection) (name : String) :
    (d.extract o name).sources =
      (List.range d.root.preorder.length).filterMap (d.sourceAt? o name) := by
  rw [extract_eq_ofCandidates, Extraction.sources, Extraction.blocks_ofCandidates,
    List.map_filterMap, declaredCandidates, List.filterMap_filterMap, filterMap_zipIdx]
  rfl

private theorem id_of_sourceAt? {d : Document} {o : Selection} {name : String} {k : Nat}
    {s : Source}
    (h : d.sourceAt? o name k = some s) :
    s.id = ⟨name, (d.root.preorder.take k).countP (·.isFragment o)⟩ := by
  obtain ⟨n, -, h⟩ := Option.bind_eq_some_iff.mp h
  obtain ⟨c, hc, h⟩ := Option.bind_eq_some_iff.mp h
  obtain ⟨b, hb, rfl⟩ := Option.map_eq_some_iff.mp h
  have hid := map_id_candidateAfter? o name (d.root.preorder.take k) n
  rw [hc, Option.map_some] at hid
  rw [(Candidate.id_of_block? hb).1]
  split at hid
  · cases hid
  · rw [fragmentId?] at hid
    split at hid
    · exact Option.some.inj hid
    · cases hid

/-- A fragment that is extracted has the number of accepted code blocks before it, whether they are
left out or have no source. Its number is that of all code blocks with a language before it exactly
when all of these are accepted; under two selections the fragment has one identity exactly when both
accept as many blocks before it, and then at least when they accept the same languages. -/
theorem id_sourceAt? (d : Document) (name : String) :
    (∀ o, (d.extract o name).sources =
        (List.range d.root.preorder.length).filterMap (d.sourceAt? o name)) ∧
      ∀ (o₁ o₂ : Selection) (k : Nat) (s₁ s₂ : Source),
        d.sourceAt? o₁ name k = some s₁ → d.sourceAt? o₂ name k = some s₂ →
          let before := d.root.preorder.take k
          s₁.id = ⟨name, before.countP (·.isFragment o₁)⟩ ∧
            (s₁.id.ordinal = before.countP (·.isTagged) ↔
              ∀ n ∈ before, n.isTagged = true → n.isFragment o₁ = true) ∧
            (s₁.id = s₂.id ↔
              before.countP (·.isFragment o₁) = before.countP (·.isFragment o₂)) ∧
            (o₁.languages = o₂.languages → s₁.id = s₂.id) := by
  refine ⟨fun o ↦ d.sources_extract o name, ?_⟩
  intro o₁ o₂ k s₁ s₂ h₁ h₂ before
  have hid₁ := id_of_sourceAt? h₁
  have hid₂ := id_of_sourceAt? h₂
  refine ⟨hid₁, ?_, ?_, ?_⟩
  · rw [hid₁]
    exact countP_eq_countP_iff (fun n ↦ Node.isTagged_of_isFragment) before
  · rw [hid₁, hid₂, FragmentId.mk.injEq]
    simp only [true_and]
    rfl
  · intro hlanguages
    have haccepts : o₁.accepts = o₂.accepts := by
      funext tag
      rw [Selection.accepts, Selection.accepts, hlanguages]
    have hfragment : (Node.isFragment o₁ ·) = (Node.isFragment o₂ ·) := by
      funext n
      rw [Node.isFragment, Node.isFragment, haccepts]
    rw [hid₁, hid₂, hfragment]

/-- A text with a block that is marked to be skipped before another one. -/
def markedText : List Char :=
  "<!-- eslint-skip -->\n\n```js\na\n```\n\n```py\nb\n```\n".toList

/-- A block that is left out is counted: the one after it keeps its identity. -/
theorem id_sourceAt?_markedText : ∃ s₁ s₂,
    (ofText markedText).sourceAt? {} "doc.md" 3 = some s₁ ∧
      (ofText markedText).sourceAt? { skipMarked := true } "doc.md" 3 = some s₂ ∧ s₁.id = s₂.id := by
  have h₁ : (ofText markedText).sourceAt? {} "doc.md" 3 =
      some ⟨⟨"doc.md", 1⟩, "doc.md/1.py", "py", ['b', '\n']⟩ := by
    decide +kernel
  have h₂ : (ofText markedText).sourceAt? { skipMarked := true } "doc.md" 3 =
      some ⟨⟨"doc.md", 1⟩, "doc.md/1.py", "py", ['b', '\n']⟩ := by
    decide +kernel
  exact ⟨_, _, h₁, h₂, ((id_sourceAt? (ofText markedText) "doc.md").2 _ _ 3 _ _ h₁ h₂).2.2.2 rfl⟩

/-- A block in a language that is not accepted is not counted: the one after it changes its identity
with the selection. -/
theorem not_ids_stable :
    let d := ofText "```js\na\n```\n\n```py\nb\n```\n".toList
    ¬∀ (o₁ o₂ : Selection) (k : Nat) (s₁ s₂ : Source), d.sourceAt? o₁ "doc.md" k = some s₁ →
      d.sourceAt? o₂ "doc.md" k = some s₂ → s₁.id = s₂.id := by
  intro d hstable
  have h₁ : d.sourceAt? {} "doc.md" 2 =
      some ⟨⟨"doc.md", 1⟩, "doc.md/1.py", "py", ['b', '\n']⟩ := by
    decide +kernel
  have h₂ : d.sourceAt? { languages := ["py"] } "doc.md" 2 =
      some ⟨⟨"doc.md", 0⟩, "doc.md/0.py", "py", ['b', '\n']⟩ := by
    decide +kernel
  exact absurd (hstable _ _ 2 _ _ h₁ h₂) (by decide)

end Document

end FencedCode
