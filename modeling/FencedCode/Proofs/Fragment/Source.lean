import FencedCode.Proofs.Fragment.Draft

/-!
# What a source is made of

A source that could be made is taken apart: which lines of the document are its content, whether the
last line was read as the closing fence, the lines of the source, and the stretches of its map.
-/

namespace FencedCode

/-- A line is read where the document has it. -/
theorem fragmentLine_eq_ok_iff {x : LineIndex} {n : Nat} {line : List Char} :
    fragmentLine x n = .ok line ↔ x.lineText? n = some line := by
  unfold fragmentLine
  cases x.lineText? n with
  | none => simp
  | some l => simp

/-- The lines of a fragment are the lines of the document from the first one on, with their
numbers. -/
theorem fragmentLines_eq_ok_iff {x : LineIndex} {n count : Nat} {lines : List (Nat × List Char)} :
    fragmentLines x n count = .ok lines ↔ lines.length = count ∧
      ∀ k l, lines[k]? = some l → l.1 = n + k ∧ x.lineText? (n + k) = some l.2 := by
  induction count generalizing n lines with
  | zero =>
    rw [fragmentLines, Except.ok.injEq, List.length_eq_zero_iff]
    constructor
    · rintro rfl
      exact ⟨rfl, by simp⟩
    · rintro ⟨rfl, -⟩
      rfl
  | succ count ih =>
    rw [fragmentLines]
    simp only [bind_eq_ok_iff, fragmentLine_eq_ok_iff, pure_eq_ok, Except.ok.injEq]
    constructor
    · rintro ⟨line, hline, rest, hrest, rfl⟩
      obtain ⟨hlen, hrest⟩ := ih.mp hrest
      refine ⟨by rw [List.length_cons, hlen], ?_⟩
      intro k l hl
      cases k with
      | zero =>
        obtain rfl : (n, line) = l := by simpa using hl
        exact ⟨rfl, hline⟩
      | succ k =>
        have h := hrest k l (by simpa using hl)
        rwa [Nat.add_assoc, Nat.add_comm 1 k] at h
    · rintro ⟨hlen, hlines⟩
      cases lines with
      | nil => cases hlen
      | cons l rest =>
        obtain ⟨hnumber, hline⟩ := hlines 0 l rfl
        refine ⟨l.2, hline, rest, ih.mpr ⟨by simpa using hlen, ?_⟩, ?_⟩
        · intro k m hm
          have h := hlines (k + 1) m (by simpa using hm)
          rwa [Nat.add_comm k 1, ← Nat.add_assoc] at h
        · rw [← show l.1 = n by simpa using hnumber]

/-- Whether the last line of a code block, freed of its container prefix, is read as the closing
fence for the one that the first line opens. -/
def Node.ClosedByLastLine (x : LineIndex) (n : Node) (indent : Nat) : Prop :=
  n.range.start.line < n.range.stop.line ∧ ∃ opening last fence,
    x.lineText? n.range.start.line = some opening ∧ x.lineText? n.range.stop.line = some last ∧
      Fence.opening? (dropIndent indent opening).2 = some fence ∧
        fence.closedBy (dropIndent indent last).2 = true

/-- The content of a code block are the lines after the first one, without the last one when that is
read as the closing fence. -/
theorem CodeLines.ofNode_eq_ok {x : LineIndex} {n : Node} {indent : Nat} {body : CodeLines}
    (h : CodeLines.ofNode x n indent = .ok body) :
    (n.ClosedByLastLine x indent ∧ body = ⟨n.range.start.line + 1,
        n.range.stop.line - 1 - n.range.start.line, some n.range.stop.line⟩) ∨
      (¬n.ClosedByLastLine x indent ∧ body = ⟨n.range.start.line + 1,
        n.range.stop.line - n.range.start.line, none⟩) := by
  unfold CodeLines.ofNode at h
  obtain ⟨opening, hopening, h⟩ := bind_eq_ok_iff.mp h
  rw [fragmentLine_eq_ok_iff] at hopening
  split at h
  · next hle =>
    right
    refine ⟨fun hclosed ↦ absurd hclosed.1 (Nat.not_lt.mpr hle), ?_⟩
    simpa using h.symm
  · next hlt =>
    split at h
    · next hnone =>
      right
      refine ⟨?_, by simpa using h.symm⟩
      rintro ⟨-, first, last, fence, hfirst, -, hfence, -⟩
      obtain rfl : opening = first := Option.some.inj (hopening.symm.trans hfirst)
      simp [hnone] at hfence
    · next fence hsome =>
      obtain ⟨last, hlast, h⟩ := bind_eq_ok_iff.mp h
      rw [fragmentLine_eq_ok_iff] at hlast
      split at h
      · next hcloses =>
        left
        exact ⟨⟨Nat.not_le.mp hlt, opening, last, fence, hopening, hlast, hsome, hcloses⟩,
          by simpa using h.symm⟩
      · next hopen =>
        right
        refine ⟨?_, by simpa using h.symm⟩
        rintro ⟨-, first, last', fence', hfirst, hlast', hfence, hcloses⟩
        obtain rfl : opening = first := Option.some.inj (hopening.symm.trans hfirst)
        obtain rfl : last = last' := Option.some.inj (hlast.symm.trans hlast')
        obtain rfl : fence = fence' := Option.some.inj (hsome.symm.trans hfence)
        exact hopen hcloses

/-- The content of a block that its last line closes stands between the two fences. -/
theorem CodeLines.ofNode_of_closed {x : LineIndex} {n : Node} {indent : Nat}
    (h : n.ClosedByLastLine x indent) : CodeLines.ofNode x n indent = .ok ⟨n.range.start.line + 1,
      n.range.stop.line - 1 - n.range.start.line, some n.range.stop.line⟩ := by
  obtain ⟨hlt, opening, last, fence, hopening, hlast, hfence, hcloses⟩ := h
  have hfirst := fragmentLine_eq_ok_iff.mpr hopening
  have hstop := fragmentLine_eq_ok_iff.mpr hlast
  rw [CodeLines.ofNode, hfirst, ok_bind, if_neg (Nat.not_le.mpr hlt), hfence]
  simp only [hstop, ok_bind, hcloses, if_true, pure_eq_ok]

/-- The line with the opening fence is one of the document. -/
theorem CodeLines.exists_opening {x : LineIndex} {n : Node} {indent : Nat} {body : CodeLines}
    (h : CodeLines.ofNode x n indent = .ok body) :
    ∃ opening, x.lineText? n.range.start.line = some opening := by
  obtain ⟨opening, hopening, -⟩ := bind_eq_ok_iff.mp h
  exact ⟨opening, fragmentLine_eq_ok_iff.mp hopening⟩

/-- The lines of a source with the given directives and content lines of the document. -/
def sourceLines (ds : List Directive) (indent : Nat) (content : List (Nat × List Char)) :
    List (List Char) :=
  ds.flatMap Directive.commentLines ++ content.map fun l ↦ (dropIndent indent l.2).2

/-- The stretches of the map of a source whose end comes from `stop`. -/
def sourceStretches (ds : List Directive) (indent : Nat) (content : List (Nat × List Char))
    (stop : Position) : List Stretch :=
  let first := directiveHeight ds + 1
  directiveStretches 1 ds ++ contentStretches indent first content ++
    if (sourceLines ds indent content).isEmpty then []
    else [closingStretch (first + content.length) stop]

/-- A stretch of the map of a source is that of a directive, of a content line or of the end. -/
theorem mem_sourceStretches {ds : List Directive} {indent : Nat}
    {content : List (Nat × List Char)} {stop : Position} {s : Stretch}
    (h : s ∈ sourceStretches ds indent content stop) :
    s ∈ directiveStretches 1 ds ∨
      (∃ k m line, content[k]? = some (m, line) ∧
        s = contentStretch indent (directiveHeight ds + 1 + k) m line) ∨
      (sourceLines ds indent content ≠ [] ∧
        s = closingStretch (directiveHeight ds + 1 + content.length) stop) := by
  simp only [sourceStretches, List.mem_append] at h
  rcases h with (h | h) | h
  · exact .inl h
  · obtain ⟨k, hk⟩ := List.getElem?_of_mem h
    rw [getElem?_contentStretches] at hk
    obtain ⟨⟨m, line⟩, hget, rfl⟩ := Option.map_eq_some_iff.mp hk
    exact .inr (.inl ⟨k, m, line, hget, rfl⟩)
  · split at h
    · cases h
    · next hne => exact .inr (.inr ⟨by simpa using hne, List.mem_singleton.mp h⟩)

/-- The parts that a source block is made of. -/
structure SourceBlock.MadeOf (x : LineIndex) (n : Node) (ds : List Directive) (id : FragmentId)
    (b : SourceBlock) (tag : List Char) (body : CodeLines) (content : List (Nat × List Char)) :
    Prop where
  tag_eq : n.languageTag? = some tag
  directives : ∃ comments, ds.foldlM Draft.addDirective {} = .ok comments
  body_eq : CodeLines.ofNode x n (containerIndent x n) = .ok body
  content_eq : fragmentLines x body.first body.count = .ok content
  source_eq : b.source = ⟨id, id.fileName (String.ofList tag), String.ofList tag,
    Text.joinLines (sourceLines ds (containerIndent x n) content)⟩
  map_eq : b.map = ⟨id, .ofStretches (sourceStretches ds (containerIndent x n) content
      (body.stop x n (containerIndent x n) content)),
    .ofText (Text.joinLines (sourceLines ds (containerIndent x n) content)), x⟩
  ascending : Ascending (sourceStretches ds (containerIndent x n) content
    (body.stop x n (containerIndent x n) content))

/-- Parts that can be had make a source: once the directives are accepted, nothing else that is
added can be refused. -/
theorem SourceBlock.exists_madeOf {x : LineIndex} {n : Node} {ds : List Directive}
    (id : FragmentId) {tag : List Char} {comments : Draft} {body : CodeLines}
    {content : List (Nat × List Char)} (htag : n.languageTag? = some tag)
    (hcomments : ds.foldlM Draft.addDirective {} = .ok comments)
    (hbody : CodeLines.ofNode x n (containerIndent x n) = .ok body)
    (hcontent : fragmentLines x body.first body.count = .ok content) :
    ∃ b, SourceBlock.ofNode x n ds id = .ok b ∧ MadeOf x n ds id b tag body content := by
  obtain ⟨hlines₁, hmaps₁⟩ := Draft.maps_empty.addDirectives hcomments
  obtain ⟨filled, hfilled, hlines₂, hmaps₂⟩ := hmaps₁.addLines (containerIndent x n) content
  obtain ⟨draft, hclose, hlines, hmap, hasc⟩ :=
    hmaps₂.close (body.stop x n (containerIndent x n) content)
  have hfirst : comments.nextLine = directiveHeight ds + 1 := by
    rw [Draft.nextLine, hlines₁]
    rfl
  have hsource : filled.lines = sourceLines ds (containerIndent x n) content := by
    rw [hlines₂, hlines₁]
    rfl
  have hnext : filled.nextLine = directiveHeight ds + 1 + content.length := by
    rw [Draft.nextLine, hsource, sourceLines, List.length_append, List.length_map,
      directiveHeight]
    omega
  rw [hsource, hnext, hfirst] at hmap hasc
  refine ⟨⟨⟨id, id.fileName (String.ofList tag), String.ofList tag, draft.text⟩,
      ⟨id, draft.map, .ofText draft.text, x⟩⟩,
    ?_, htag, ⟨comments, hcomments⟩, hbody, hcontent, ?_, ?_, hasc⟩
  · simp only [SourceBlock.ofNode, htag, hcomments, mapError_ok, ok_bind, hbody, hcontent, hfilled,
      hclose, pure_eq_ok]
  · rw [Draft.text, hlines, hsource]
  · rw [Draft.text, hlines, hsource, hmap]
    rfl

/-- A source can be made exactly when its parts can. -/
theorem SourceBlock.ofNode_eq_ok_iff {x : LineIndex} {n : Node} {ds : List Directive}
    {id : FragmentId} {b : SourceBlock} : SourceBlock.ofNode x n ds id = .ok b ↔
      ∃ tag body content, MadeOf x n ds id b tag body content := by
  constructor
  · intro h
    have hchain := h
    unfold SourceBlock.ofNode at hchain
    cases htag : n.languageTag? with
    | none =>
      rw [htag] at hchain
      cases hchain
    | some tag =>
      rw [htag] at hchain
      obtain ⟨comments, hcomments, hchain⟩ := bind_eq_ok_iff.mp hchain
      obtain ⟨body, hbody, hchain⟩ := bind_eq_ok_iff.mp hchain
      obtain ⟨content, hcontent, -⟩ := bind_eq_ok_iff.mp hchain
      obtain ⟨b', hb', hmade⟩ := exists_madeOf id htag (mapError_eq_ok_iff.mp hcomments) hbody
        hcontent
      obtain rfl : b = b' := Except.ok.inj (h.symm.trans hb')
      exact ⟨tag, body, content, hmade⟩
  · rintro ⟨tag, body, content, h⟩
    obtain ⟨comments, hcomments⟩ := h.directives
    obtain ⟨b', hb', hmade⟩ := exists_madeOf id h.tag_eq hcomments h.body_eq h.content_eq
    have heq : b = b' := by
      rw [show b = ⟨b.source, b.map⟩ from rfl, h.source_eq, h.map_eq, ← hmade.source_eq,
        ← hmade.map_eq]
    rw [heq]
    exact hb'

end FencedCode
