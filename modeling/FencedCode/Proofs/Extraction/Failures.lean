import FencedCode.Proofs.Extraction.Outcomes
import FencedCode.Proofs.Fragment.Errors

/-!
# Which fragments of a document have no source

Every node of a document stands on lines of it, so nothing but a directive that collapses keeps a
fragment from having a source. A comment over several lines whose text fits on one collapses when it
ends to the left of where it starts: an extraction may fail, and the main statement says when. It
holds for whatever events the document was made of.
-/

namespace FencedCode

open Markdown (Event)

/-- A candidate is one of the nodes that it was found among, and has a language. -/
theorem mem_of_mem_declaredCandidates {o : Selection} {name : String} {ns : List Node}
    {c : Candidate} (h : c ∈ declaredCandidates o name ns) :
    c.node ∈ ns ∧ ∃ tag, c.node.languageTag? = some tag := by
  obtain ⟨⟨n, k⟩, hmem, hc⟩ := List.mem_filterMap.mp h
  have hn : n ∈ ns := by
    obtain ⟨-, -, hget⟩ := List.mem_zipIdx hmem
    rw [hget]
    exact List.getElem_mem _
  simp only [candidateAfter?] at hc
  split at hc
  · next hfragment =>
    obtain rfl := Option.some.inj hc
    refine ⟨hn, ?_⟩
    simp only [Bool.and_eq_true, Node.isFragment] at hfragment
    obtain ⟨tag, htag, -⟩ := (Option.any_eq_true _ _).mp hfragment.1.2
    exact ⟨tag, htag⟩
  · cases hc

/-- The directives of a candidate are what nodes say that it was found among. -/
theorem exists_node_of_mem_directives {o : Selection} {name : String} {ns : List Node}
    {c : Candidate} (h : c ∈ declaredCandidates o name ns) {d : Directive}
    (hd : d ∈ c.directives) : ∃ m ∈ ns, m.directive? = some d := by
  obtain ⟨⟨n, k⟩, -, hc⟩ := List.mem_filterMap.mp h
  simp only [candidateAfter?] at hc
  split at hc
  · obtain rfl := Option.some.inj hc
    simp only at hd
    split at hd
    · cases hd
    · obtain ⟨m, hm, hsays⟩ := List.mem_filterMap.mp hd
      exact ⟨m, List.mem_of_mem_take ((List.rtakeWhile_suffix _ _).subset hm), hsays⟩
  · cases hc

/-- Whether a directive of a candidate collapses. -/
def Candidate.collapses (c : Candidate) : Bool := c.directives.any Directive.collapses

/-- A candidate of a document has a source, or one of its directives collapses and is refused. -/
theorem Candidate.outcome_cases {o : Selection} {name : String} {text : List Char}
    {events : List Event} {c : Candidate}
    (h : c ∈ declaredCandidates o name (Document.ofEvents text events).root.preorder) :
    (c.collapses = false ∧
        ∃ b, c.outcome (LineIndex.ofText text) = .ok b ∧ b.source.id = c.id) ∨
      (c.collapses = true ∧ ∃ start stop,
        c.outcome (LineIndex.ofText text) = .error (.map (.invertedRange start stop))) := by
  obtain ⟨hmem, tag, htag⟩ := mem_of_mem_declaredCandidates h
  rw [collapses, List.any_eq_true, List.any_eq_false]
  simpa [outcome] using
    SourceBlock.ofNode_cases (Document.liesIn_of_mem_preorder hmem) htag c.directives c.id

/-- The comment of a directive of a candidate is the place of a node. -/
theorem Document.exists_range_of_mem_directives {text : List Char} {events : List Event}
    {o : Selection} {name : String} {c : Candidate}
    (hc : c ∈ declaredCandidates o name (ofEvents text events).root.preorder) {d : Directive}
    (hd : d ∈ c.directives) : ∃ m ∈ (ofEvents text events).root.preorder, d.location = m.range := by
  obtain ⟨m, hm, hsays⟩ := exists_node_of_mem_directives hc hd
  exact ⟨m, hm, Node.location_of_directive? hsays⟩

/-- The columns of a node count from one, and to one more than the bytes of the text at most. -/
theorem Document.column_mem_of_mem_preorder {text : List Char} {events : List Event} {n : Node}
    (h : n ∈ (ofEvents text events).root.preorder) :
    (1 ≤ n.range.start.column ∧ n.range.start.column ≤ Text.byteLength text + 1) ∧
      1 ≤ n.range.stop.column ∧ n.range.stop.column ≤ Text.byteLength text + 1 := by
  obtain ⟨s, hs⟩ := Node.exists_place_of_mem_ofEvents h
  have hcolumn := (LineIndex.ofText text).position_column_mem
  rw [LineIndex.byteLength, LineIndex.ofText_text] at hcolumn
  rw [hs, NodeKind.place]
  exact ⟨hcolumn _, hcolumn _⟩

/-- The columns of comments of a document leave room for sums in a word, unless the text is too long
for that. -/
theorem Document.hasColumns_of_mem_directives {text : List Char} {events : List Event}
    {o : Selection} {name : String} (htext : Text.byteLength text + 1 < sumLimit) {c : Candidate}
    (hc : c ∈ declaredCandidates o name (ofEvents text events).root.preorder) {d : Directive}
    (hd : d ∈ c.directives) : d.HasColumns := by
  obtain ⟨m, hm, hlocation⟩ := exists_range_of_mem_directives hc hd
  obtain ⟨⟨-, hstart⟩, -, hstop⟩ := column_mem_of_mem_preorder hm
  rw [← hlocation] at hstart hstop
  exact ⟨hstart.trans_lt htext, hstop.trans_lt htext⟩

/-- Then a candidate has a directive that collapses exactly when it has one that turns back. -/
theorem Document.collapses_iff_exists_turnsBack {text : List Char} {events : List Event}
    {o : Selection} {name : String} (htext : Text.byteLength text + 1 < sumLimit) {c : Candidate}
    (hc : c ∈ declaredCandidates o name (ofEvents text events).root.preorder) :
    c.collapses = true ↔ ∃ d ∈ c.directives, d.TurnsBack := by
  rw [Candidate.collapses, List.any_eq_true]
  apply exists_congr
  intro d
  apply and_congr_right
  intro hd
  exact Directive.collapses_eq_true_iff (hasColumns_of_mem_directives htext hc hd)

/-- Which members of a list are kept, read off the results for them. -/
private theorem map_filterMap_eq_map_filter {α β γ : Type} {f : α → Option β} {p : α → Bool} {g : β → γ}
    {h : α → γ} {l : List α}
    (hl : ∀ a ∈ l, (p a = true ∧ ∃ b, f a = some b ∧ g b = h a) ∨ (p a = false ∧ f a = none)) :
    (l.filterMap f).map g = (l.filter p).map h := by
  induction l with
  | nil => rfl
  | cons a l ih =>
    obtain ⟨ha, hrest⟩ := List.forall_mem_cons.mp hl
    rcases ha with ⟨hp, b, hf, hg⟩ | ⟨hp, hf⟩
    · rw [List.filterMap_cons_some hf, List.filter_cons_of_pos hp, List.map_cons, List.map_cons,
        ih hrest, hg]
    · rw [List.filterMap_cons_none hf, List.filter_cons_of_neg (by simp [hp]), ih hrest]

/-- The fragments of a document that have no source are those with a directive that collapses, which
is refused for ending before it starts; all others have one. A directive collapses when its comment,
or its text, is on one line and the comment ends to the left of where it starts. -/
theorem Document.failures_extract (text : List Char) (events : List Event) (o : Selection)
    (name : String) :
    let declared := declaredCandidates o name (ofEvents text events).root.preorder
    let extraction := (ofEvents text events).extract o name
    extraction.sources.map (·.id) = (declared.filter (!·.collapses)).map (·.id) ∧
      extraction.failures.map (·.id) = (declared.filter (·.collapses)).map (·.id) ∧
      (∀ f ∈ extraction.failures, ∃ start stop, f.error = .map (.invertedRange start stop)) ∧
      (extraction.failures = [] ↔ ∀ c ∈ declared, c.collapses = false) ∧
      (Text.byteLength text + 1 < sumLimit → ∀ c ∈ declared,
        (c.collapses = true ↔ ∃ d ∈ c.directives, d.TurnsBack)) := by
  intro declared extraction
  have hextraction : extraction = .ofCandidates (LineIndex.ofText text) declared :=
    (ofEvents text events).extract_eq_ofCandidates o name
  have hfailures := Extraction.failures_ofCandidates (LineIndex.ofText text) declared
  rw [← hextraction] at hfailures
  have hids : extraction.failures.map (·.id) = (declared.filter (·.collapses)).map (·.id) := by
    rw [hfailures]
    apply map_filterMap_eq_map_filter
    intro c hc
    rcases Candidate.outcome_cases hc with ⟨hcollapses, b, hb, -⟩ | ⟨hcollapses, start, stop, he⟩
    · exact .inr ⟨hcollapses, by rw [Candidate.failure?, hb]⟩
    · exact .inl ⟨hcollapses, ⟨c.id, .map (.invertedRange start stop)⟩,
        by rw [Candidate.failure?, he], rfl⟩
  refine ⟨?_, hids, ?_, ?_, fun htext c ↦ collapses_iff_exists_turnsBack htext⟩
  · rw [Extraction.sources, hextraction, Extraction.blocks_ofCandidates, List.map_map]
    apply map_filterMap_eq_map_filter
    intro c hc
    rcases Candidate.outcome_cases hc with ⟨hcollapses, b, hb, hid⟩ | ⟨hcollapses, start, stop, he⟩
    · exact .inl ⟨by simp [hcollapses], b, by rw [Candidate.block?, hb]; rfl, hid⟩
    · exact .inr ⟨by simp [hcollapses], by rw [Candidate.block?, he]; rfl⟩
  · intro f hf
    rw [hfailures] at hf
    obtain ⟨c, hc, hcf⟩ := List.mem_filterMap.mp hf
    rcases Candidate.outcome_cases hc with ⟨-, b, hb, -⟩ | ⟨-, start, stop, he⟩
    · rw [Candidate.failure?, hb] at hcf
      cases hcf
    · rw [Candidate.failure?, he] at hcf
      obtain rfl := Option.some.inj hcf
      exact ⟨start, stop, rfl⟩
  · rw [← List.map_eq_nil_iff, hids, List.map_eq_nil_iff, List.filter_eq_nil_iff]
    simp only [Bool.not_eq_true]

/-- A comment that starts far to the right and ends at the start of its second line keeps the
fragment after it from having a source. -/
theorem Document.failures_extract_ne_nil :
    ((ofText "aaaaaaaaa <!-- eslint a\n-->\n\n```js\nx\n```\n".toList).extract {}
      "doc.md").failures ≠ [] := by
  decide +kernel

end FencedCode
