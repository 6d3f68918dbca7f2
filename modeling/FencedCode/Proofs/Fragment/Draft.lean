import FencedCode.Fragment.Source
import FencedCode.Proofs.LineIndex.Lines
import FencedCode.Proofs.Outcome
import FencedCode.Proofs.PositionMap.Lookup

/-!
# Drafts and their maps

What a draft holds after directives and content lines were added to it: its lines, and the stretches
of its map. The invariant `Draft.Maps` says that the stretches are ascending and end on the lines of
the draft, so that a stretch on the next line always has its place after them. Only a directive can
be refused, for ending before it starts.
-/

namespace FencedCode

/-- How many lines of a source the comments for its directives take. -/
def directiveHeight (ds : List Directive) : Nat := (ds.flatMap Directive.commentLines).length

/-- The stretch for a directive whose comment starts on line `first` of a source. -/
def Directive.stretch (d : Directive) (first : Nat) : Stretch :=
  ⟨d.location, d.generatedRange first d.commentLines.length⟩

/-- The stretches for directives whose comments start on line `first` of a source. -/
def directiveStretches (first : Nat) : List Directive → List Stretch
  | [] => []
  | d :: ds => d.stretch first :: directiveStretches (first + d.commentLines.length) ds

/-- The stretch for line `generated` of a source that holds what is left of line number `n` of the
document. -/
def contentStretch (indent generated n : Nat) (line : List Char) : Stretch :=
  let (stripped, text) := dropIndent indent line
  ⟨⟨⟨n, stripped + 1, none⟩, ⟨n, stripped + text.length + 1, none⟩⟩,
    ⟨⟨generated, 1, none⟩, ⟨generated, text.length + 1, none⟩⟩⟩

/-- The stretches for content lines from line `generated` of a source on. -/
def contentStretches (indent generated : Nat) : List (Nat × List Char) → List Stretch
  | [] => []
  | (n, line) :: lines =>
    contentStretch indent generated n line :: contentStretches indent (generated + 1) lines

/-- The stretch for the empty line `generated` at the end of a source. -/
def closingStretch (generated : Nat) (stop : Position) : Stretch :=
  ⟨.point stop, .point ⟨generated, 1, none⟩⟩

/-- Each content line has one stretch, on a line of the source of its own. -/
theorem getElem?_contentStretches (indent generated : Nat) (lines : List (Nat × List Char))
    (k : Nat) : (contentStretches indent generated lines)[k]? =
      lines[k]?.map fun (n, line) ↦ contentStretch indent (generated + k) n line := by
  induction lines generalizing generated k with
  | nil => simp [contentStretches]
  | cons l lines ih =>
    obtain ⟨n, line⟩ := l
    cases k with
    | zero => simp [contentStretches]
    | succ k => simp [contentStretches, ih, Nat.add_comm, Nat.add_left_comm]

/-- The lines of two runs of directives add up. -/
theorem directiveHeight_append (before after : List Directive) :
    directiveHeight (before ++ after) = directiveHeight before + directiveHeight after := by
  rw [directiveHeight, List.flatMap_append, List.length_append]
  rfl

/-- The first directive adds the lines of its comment. -/
theorem directiveHeight_cons (d : Directive) (ds : List Directive) :
    directiveHeight (d :: ds) = d.commentLines.length + directiveHeight ds := by
  rw [directiveHeight, List.flatMap_cons, List.length_append]
  rfl

/-- Directives start on the line after the comments for those before them. -/
theorem directiveStretches_append (first : Nat) (before after : List Directive) :
    directiveStretches first (before ++ after) = directiveStretches first before ++
      directiveStretches (first + directiveHeight before) after := by
  induction before generalizing first with
  | nil => rfl
  | cons d before ih =>
    rw [List.cons_append, directiveStretches, directiveStretches, ih, directiveHeight_cons,
      List.cons_append, Nat.add_assoc]

/-- The stretches of directives are the stretch of a directive each. -/
theorem exists_of_mem_directiveStretches {first : Nat} {ds : List Directive} {s : Stretch}
    (h : s ∈ directiveStretches first ds) : ∃ d ∈ ds, ∃ start, s = d.stretch start := by
  induction ds generalizing first with
  | nil => cases h
  | cons d ds ih =>
    rcases List.mem_cons.mp h with rfl | h
    · exact ⟨d, List.mem_cons_self, first, rfl⟩
    · obtain ⟨e, he, hstretch⟩ := ih h
      exact ⟨e, List.mem_cons_of_mem d he, hstretch⟩

/-- A comment takes at least one line. -/
theorem Directive.length_commentLines_pos (d : Directive) : 0 < d.commentLines.length :=
  List.length_pos_iff.mpr (Text.splitFeeds_ne_nil _)

/-- The directives before a source's content start and end on the lines of their comments. -/
theorem stop_line_of_mem_directiveStretches {first : Nat} {ds : List Directive} {s : Stretch}
    (h : s ∈ directiveStretches first ds) : first ≤ s.generated.start.line ∧
      s.generated.stop.line < first + directiveHeight ds := by
  induction ds generalizing first with
  | nil => cases h
  | cons d ds ih =>
    have hpos := d.length_commentLines_pos
    rw [directiveHeight_cons]
    rcases List.mem_cons.mp h with rfl | h
    · simp only [Directive.stretch, Directive.generatedRange]
      omega
    · have hrest := ih h
      omega

namespace Draft

/-- A draft whose map holds the given stretches: they are in reading order and end on the lines of
the draft. -/
structure Maps (d : Draft) (ss : List Stretch) : Prop where
  map_eq : d.map = .ofStretches ss
  ascending : Ascending ss
  stop_line_le : ∀ s ∈ ss, s.generated.stop.line ≤ d.lines.length

/-- An empty draft maps nothing. -/
theorem maps_empty : ({} : Draft).Maps [] := ⟨rfl, .nil, by simp⟩

/-- A stretch that starts on the next line has its place after those of a draft. -/
theorem Maps.ascending_append {d : Draft} {ss : List Stretch} (h : d.Maps ss) {s : Stretch}
    (hline : s.generated.start.line = d.nextLine) (hle : s.generated.start ≤ s.generated.stop) :
    Ascending (ss ++ [s]) := by
  refine Ascending.append_singleton_iff.mpr ⟨h.ascending, hle, ?_⟩
  intro t ht
  have hstop := h.stop_line_le t (List.mem_of_getLast? ht)
  rw [Position.lt_def, hline, nextLine]
  omega

/-- A stretch that starts on the next line and is not inverted can be added. -/
theorem Maps.add_eq_ok {d : Draft} {ss : List Stretch} (h : d.Maps ss) {s : Stretch}
    (hline : s.generated.start.line = d.nextLine) (hle : s.generated.start ≤ s.generated.stop) :
    d.map.add s.host s.generated = .ok (.ofStretches (ss ++ [s])) := by
  rw [h.map_eq]
  exact (PositionMap.add_ofStretches_ok_iff h.ascending s _).mpr ⟨h.ascending_append hline hle, rfl⟩

/-- A directive that is accepted adds the lines of its comment and the stretch for it. -/
theorem Maps.addDirective {d d' : Draft} {ss : List Stretch} (h : d.Maps ss)
    {directive : Directive} (hadd : d.addDirective directive = .ok d') :
    d'.lines = d.lines ++ directive.commentLines ∧
      d'.Maps (ss ++ [directive.stretch d.nextLine]) := by
  obtain ⟨m, hm, hd⟩ := bind_eq_ok_iff.mp hadd
  rw [pure_eq_ok, Except.ok.injEq] at hd
  subst hd
  rw [h.map_eq] at hm
  obtain ⟨hasc, hmap⟩ := (PositionMap.add_ofStretches_ok_iff h.ascending
    (directive.stretch d.nextLine) m).mp hm
  refine ⟨rfl, hmap, hasc, ?_⟩
  intro s hs
  have hpos := directive.length_commentLines_pos
  simp only [List.length_append]
  rcases List.mem_append.mp hs with hs | hs
  · have hle := h.stop_line_le s hs
    omega
  · rw [List.mem_singleton.mp hs]
    simp only [Directive.stretch, Directive.generatedRange, nextLine]
    omega

/-- Directives that are accepted add the lines of their comments and the stretches for them. -/
theorem Maps.addDirectives {d d' : Draft} {ss : List Stretch} (h : d.Maps ss)
    {directives : List Directive} (hadd : directives.foldlM Draft.addDirective d = .ok d') :
    d'.lines = d.lines ++ directives.flatMap Directive.commentLines ∧
      d'.Maps (ss ++ directiveStretches d.nextLine directives) := by
  induction directives generalizing d ss with
  | nil =>
    rw [List.foldlM_nil, pure_eq_ok, Except.ok.injEq] at hadd
    subst hadd
    simpa [directiveStretches] using h
  | cons directive directives ih =>
    rw [List.foldlM_cons] at hadd
    obtain ⟨d₁, hd₁, hrest⟩ := bind_eq_ok_iff.mp hadd
    obtain ⟨hlines₁, hmaps₁⟩ := h.addDirective hd₁
    obtain ⟨hlines, hmaps⟩ := ih hmaps₁ hrest
    have hnext : d₁.nextLine = d.nextLine + directive.commentLines.length := by
      rw [nextLine, nextLine, hlines₁, List.length_append]
      omega
    rw [hnext, List.append_assoc] at hmaps
    refine ⟨?_, hmaps⟩
    rw [hlines, hlines₁, List.flatMap_cons, List.append_assoc]

/-- A content line is always accepted: it adds what is left of the line and the stretch for it. -/
theorem Maps.addContent {d : Draft} {ss : List Stretch} (h : d.Maps ss) (indent n : Nat)
    (line : List Char) : ∃ d', d.addContent indent n line = .ok d' ∧
      d'.lines = d.lines ++ [(dropIndent indent line).2] ∧
      d'.Maps (ss ++ [contentStretch indent d.nextLine n line]) := by
  have hle : (contentStretch indent d.nextLine n line).generated.start ≤
      (contentStretch indent d.nextLine n line).generated.stop := by
    simp [contentStretch, Position.le_def]
  refine ⟨⟨d.lines ++ [(dropIndent indent line).2],
    .ofStretches (ss ++ [contentStretch indent d.nextLine n line])⟩, ?_, rfl, rfl,
    h.ascending_append rfl hle, ?_⟩
  · exact bind_eq_ok_iff.mpr ⟨_, h.add_eq_ok rfl hle, rfl⟩
  · intro s hs
    simp only [List.length_append, List.length_singleton]
    rcases List.mem_append.mp hs with hs | hs
    · have hle := h.stop_line_le s hs
      omega
    · rw [List.mem_singleton.mp hs]
      simp [contentStretch, nextLine]

/-- Content lines are always accepted: they add what is left of each, and its stretch. -/
theorem Maps.addLines {d : Draft} {ss : List Stretch} (h : d.Maps ss) (indent : Nat)
    (lines : List (Nat × List Char)) : ∃ d', d.addLines indent lines = .ok d' ∧
      d'.lines = d.lines ++ lines.map (fun l ↦ (dropIndent indent l.2).2) ∧
      d'.Maps (ss ++ contentStretches indent d.nextLine lines) := by
  induction lines generalizing d ss with
  | nil => exact ⟨d, rfl, by simp, by simpa [contentStretches] using h⟩
  | cons l lines ih =>
    obtain ⟨n, line⟩ := l
    obtain ⟨d₁, hadd, hlines₁, hmaps₁⟩ := h.addContent indent n line
    obtain ⟨d', hrest, hlines, hmaps⟩ := ih hmaps₁
    have hnext : d₁.nextLine = d.nextLine + 1 := by
      rw [nextLine, nextLine, hlines₁, List.length_append, List.length_singleton]
    rw [hnext, List.append_assoc] at hmaps
    refine ⟨d', ?_, ?_, hmaps⟩
    · rw [Draft.addLines, List.foldlM_cons]
      exact bind_eq_ok_iff.mpr ⟨d₁, hadd, hrest⟩
    · rw [hlines, hlines₁, List.map_cons, List.append_assoc, List.singleton_append]

/-- The end of a draft is always accepted; it has a stretch unless the draft is empty. -/
theorem Maps.close {d : Draft} {ss : List Stretch} (h : d.Maps ss) (stop : Position) :
    ∃ d', d.close stop = .ok d' ∧ d'.lines = d.lines ∧
      d'.map = .ofStretches (ss ++ if d.lines.isEmpty then [] else
        [closingStretch d.nextLine stop]) ∧
      Ascending (ss ++ if d.lines.isEmpty then [] else [closingStretch d.nextLine stop]) := by
  have hle : (closingStretch d.nextLine stop).generated.start ≤
      (closingStretch d.nextLine stop).generated.stop := Position.le_refl _
  unfold Draft.close
  split
  · exact ⟨d, rfl, rfl, by simpa using h.map_eq, by simpa using h.ascending⟩
  · exact ⟨_, bind_eq_ok_iff.mpr ⟨_, h.add_eq_ok rfl hle, rfl⟩, rfl, rfl,
      h.ascending_append rfl hle⟩

end Draft

end FencedCode
