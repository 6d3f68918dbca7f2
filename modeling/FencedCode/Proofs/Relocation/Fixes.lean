import FencedCode.Document
import FencedCode.Proofs.Fragment.Slices
import FencedCode.Relocation

/-!
# Fixes that survive relocation

Only the places of a diagnostic decide whether its fixes are kept. A fix that is kept covers in the
document what it covered in the source, terminators left aside, unless its range enters lines that
were freed of a container prefix: then it covers the prefixes too.
-/

namespace FencedCode

/-- The fixes of a diagnostic: its own and those of its suggestions, or that there is none. -/
def Diagnostic.fixes (d : Diagnostic) : List (Option Fix) := d.fix :: d.suggestions.map (·.fix)

private theorem Diagnostic.fixes_filterFixes (f : Fix → Option Fix) (d : Diagnostic) :
    (d.filterFixes f).fixes = d.fixes.map fun fix ↦ fix.bind f := by
  simp [fixes, filterFixes]

namespace FragmentMap

/-- A fix moves by its two offsets, where they stay in order, with its text kept. -/
theorem moveFix?_eq_some_iff {m : FragmentMap} {f g : Fix} :
    m.moveFix? f = some g ↔ m.hostOffset? f.start = some g.start ∧
      m.hostOffset? f.stop = some g.stop ∧ g.start ≤ g.stop ∧ g.text = f.text := by
  unfold moveFix?
  cases m.hostOffset? f.start with
  | none => simp
  | some start =>
    cases m.hostOffset? f.stop with
    | none => simp
    | some stop =>
      obtain ⟨start', stop', text⟩ := g
      by_cases hle : start ≤ stop
      · simp only [if_pos hle, Option.some.injEq, Fix.mk.injEq]
        constructor
        · rintro ⟨rfl, rfl, rfl⟩
          exact ⟨rfl, rfl, hle, rfl⟩
        · rintro ⟨rfl, rfl, -, rfl⟩
          exact ⟨rfl, rfl, rfl⟩
      · simp only [if_neg hle, reduceCtorEq, Option.some.injEq, false_iff]
        rintro ⟨rfl, rfl, hle', -⟩
        exact hle hle'

/-- The offsets of a fix that moved are those of the map, in order. -/
theorem moveFix?_eq_some {m : FragmentMap} {fix fix' : Fix} (h : m.moveFix? fix = some fix') :
    m.hostOffset? fix.start = some fix'.start ∧ m.hostOffset? fix.stop = some fix'.stop ∧
      fix'.start ≤ fix'.stop := by
  obtain ⟨hstart, hstop, hle, -⟩ := moveFix?_eq_some_iff.mp h
  exact ⟨hstart, hstop, hle⟩

/-- The fixes of a diagnostic are moved where it stays on one line. -/
theorem moveFixes_eq (m : FragmentMap) (oneLine : Bool) (d : Diagnostic) :
    m.moveFixes oneLine d = d.filterFixes fun fix ↦ if oneLine then m.moveFix? fix else none := by
  cases oneLine with
  | true => rfl
  | false => rfl

private theorem fixes_moveFixes (m : FragmentMap) (oneLine : Bool) (d : Diagnostic) :
    (m.moveFixes oneLine d).fixes =
      d.fixes.map fun fix ↦ if oneLine then fix.bind m.moveFix? else none := by
  rw [moveFixes_eq, Diagnostic.fixes_filterFixes]
  cases oneLine with
  | true => rfl
  | false => simp

/-- Relocation keeps all fixes or none. -/
theorem fixes_moveDiagnostic? {m : FragmentMap} {d d' : Diagnostic}
    (h : m.moveDiagnostic? d = some d') :
    ∃ oneLine : Bool, d'.fixes =
      d.fixes.map fun fix ↦ if oneLine then fix.bind m.moveFix? else none := by
  obtain ⟨start, -, rfl⟩ := Option.map_eq_some_iff.mp h
  dsimp only
  split
  · split
    · exact ⟨_, m.fixes_moveFixes _ _⟩
    · exact ⟨_, m.fixes_moveFixes _ _⟩
  · exact ⟨_, m.fixes_moveFixes _ _⟩

/-- A fix that is left after relocation is the one that stood in its place, moved. -/
theorem moveFix?_of_moveDiagnostic? {m : FragmentMap} {d d' : Diagnostic}
    (h : m.moveDiagnostic? d = some d') {i : Nat} {fix fix' : Fix}
    (hfix : d.fixes[i]? = some (some fix)) (hfix' : d'.fixes[i]? = some (some fix')) :
    m.moveFix? fix = some fix' := by
  obtain ⟨oneLine, hfixes⟩ := fixes_moveDiagnostic? h
  rw [hfixes, List.getElem?_map, hfix, Option.map_some, Option.some.injEq] at hfix'
  split at hfix'
  · exact hfix'
  · cases hfix'

end FragmentMap

private theorem withoutBreaks_strippedPrefix_eq_nil {x : LineIndex} {n : Node} {m : Nat} :
    Text.withoutBreaks (strippedPrefix x n m) = [] ↔ ∀ c ∈ strippedPrefix x n m, c = '\r' := by
  rw [Text.withoutBreaks_eq_nil]
  have hfeed : '\n' ∉ strippedPrefix x n m := by
    unfold strippedPrefix
    split
    · exact List.not_mem_nil
    · next line hline =>
      split
      · exact fun hmem ↦ LineIndex.not_mem_of_lineText? hline (List.mem_of_mem_take hmem)
      · exact List.not_mem_nil
  constructor
  · intro h c hc
    exact (h c hc).resolve_right fun heq ↦ hfeed (heq ▸ hc)
  · intro h c hc
    exact .inl (h c hc)

/-- A fix of the content of a source that survives relocation covers the same characters in the
document, terminators left aside, exactly when nothing was taken off the lines that its range enters
after the first one. -/
theorem FragmentMap.withoutBreaks_slice_moveDiagnostic? {x : LineIndex}
    (hx : x.byteLength < signedLimit) {n : Node} {ds : List Directive} {id : FragmentId}
    {b : SourceBlock} (hb : SourceBlock.ofNode x n ds id = .ok b) {d d' : Diagnostic}
    (hd : b.map.moveDiagnostic? d = some d') {i : Nat} {fix fix' : Fix}
    (hfix : d.fixes[i]? = some (some fix)) (hfix' : d'.fixes[i]? = some (some fix'))
    (hrange : Text.IsRange b.source.text fix.start fix.stop)
    (hcontent : directiveHeight ds < (b.map.generated.position fix.start).line) :
    Text.withoutBreaks (Text.slice fix'.start fix'.stop x.text) =
        Text.withoutBreaks (Text.slice fix.start fix.stop b.source.text) ↔
      ∀ m, (b.map.generated.position fix.start).line < directiveHeight ds + m →
        directiveHeight ds + m ≤ (b.map.generated.position fix.stop).line →
          ∀ c ∈ strippedPrefix x n (n.range.start.line + m), c = '\r' := by
  obtain ⟨tag, body, content, h⟩ := SourceBlock.ofNode_eq_ok_iff.mp hb
  obtain ⟨hstart, hstop, hle'⟩ :=
    moveFix?_eq_some (moveFix?_of_moveDiagnostic? hd hfix hfix')
  rcases Nat.eq_or_lt_of_le hrange.le with heq | hlt
  · -- nothing is covered
    rw [← heq, hstart] at hstop
    rw [← heq, ← Option.some.inj hstop, Text.slice_self, Text.slice_self]
    simp only [true_iff]
    intro m hm hm'
    omega
  · have hline := b.map.generated.position_line_le hrange.le
    obtain ⟨k, lead, hk, -, hpos, hfirst⟩ := h.exists_samePlace hx hrange.isBoundary_start hcontent
      hstart (.inr (Nat.lt_of_lt_of_le hlt hrange.isBoundary_stop.le))
    obtain ⟨k', lead', hk', hcount, -, hlast⟩ := h.exists_samePlace hx hrange.isBoundary_stop
      (by omega) hstop (.inl hpos)
    obtain ⟨j, rfl⟩ := Nat.exists_eq_add_of_le (show k ≤ k' by omega)
    rw [h.withoutBreaks_slice_eq_iff hfirst hlast hcount hrange.le hle', hk, hk', prefixesAfter,
      List.forall_mem_map]
    simp only [withoutBreaks_strippedPrefix_eq_nil, List.mem_range]
    constructor
    · intro hnone m hm hm'
      have hlost := hnone (m - k - 2) (by omega)
      rwa [show n.range.start.line + 1 + (k + (m - k - 2 + 1)) = n.range.start.line + m by omega]
        at hlost
    · intro hnone i hi
      have hlost := hnone (1 + (k + (i + 1))) (by omega) (by omega)
      rwa [← Nat.add_assoc] at hlost

/-- A fix in a quoted block replaces in the document what it replaces in the source. -/
theorem FragmentMap.withoutBreaks_slice_quotedBlock : ∃ b,
    SourceBlock.ofNode quotedDocument quotedBlock [quotedDirective] ⟨"doc.md", 0⟩ = .ok b ∧
      b.map.moveDiagnostic? { line := 3, column := 0, fix := some ⟨16, 19, "d"⟩ } =
          some { line := 5, column := 2, fix := some ⟨32, 35, "d"⟩ } ∧
        Text.withoutBreaks (Text.slice 32 35 quotedDocument.text) =
          Text.withoutBreaks (Text.slice 16 19 b.source.text) := by
  obtain ⟨b, hb, htest⟩ := exists_of_any_toOption (x := SourceBlock.ofNode quotedDocument
      quotedBlock [quotedDirective] ⟨"doc.md", 0⟩)
    (p := fun b ↦ b.map.moveDiagnostic? { line := 3, column := 0, fix := some ⟨16, 19, "d"⟩ } =
        some { line := 5, column := 2, fix := some ⟨32, 35, "d"⟩ } ∧
      Text.IsRange b.source.text 16 19 ∧
        (b.map.generated.position 16).line = 3 ∧ (b.map.generated.position 19).line = 3)
    (by decide +kernel)
  obtain ⟨hd, hrange, hstart, hstop⟩ := of_decide_eq_true htest
  have hx : quotedDocument.byteLength < signedLimit := by decide +kernel
  have hheight : directiveHeight [quotedDirective] = 2 := by decide +kernel
  refine ⟨b, hb, hd, (FragmentMap.withoutBreaks_slice_moveDiagnostic? hx hb hd (i := 0) rfl rfl
    hrange (by rw [hheight, hstart]; decide)).mpr ?_⟩
  intro m hm hm'
  rw [hstart] at hm
  rw [hstop] at hm'
  omega

/-- Whether every fix for a fragment of a document that survives relocation covers in the document
what it covers in the source, terminators left aside. -/
def Document.FixesKeepText (text : List Char) : Prop :=
  ∀ o name, ∀ b ∈ ((Document.ofText text).extract o name).blocks, ∀ d d',
    b.map.moveDiagnostic? d = some d' → ∀ (i : Nat) (fix fix' : Fix),
      d.fixes[i]? = some (some fix) → d'.fixes[i]? = some (some fix') →
        Text.IsRange b.source.text fix.start fix.stop →
          Text.withoutBreaks (Text.slice fix'.start fix'.stop text) =
            Text.withoutBreaks (Text.slice fix.start fix.stop b.source.text)

private theorem Document.not_fixesKeepText_of_any {text : List Char} (d d' : Diagnostic)
    {fix fix' : Fix} (hfix : d.fix = some fix) (hfix' : d'.fix = some fix')
    (h : ((Document.ofText text).extract {} "doc.md").blocks.any (fun b ↦
      b.map.moveDiagnostic? d = some d' ∧ Text.IsRange b.source.text fix.start fix.stop ∧
        Text.withoutBreaks (Text.slice fix'.start fix'.stop text) ≠
          Text.withoutBreaks (Text.slice fix.start fix.stop b.source.text)) = true) :
    ¬FixesKeepText text := by
  intro hkeep
  obtain ⟨b, hb, htest⟩ := List.any_eq_true.mp h
  obtain ⟨hd, hrange, hne⟩ := of_decide_eq_true htest
  refine hne (hkeep _ _ b hb d d' hd 0 fix fix' ?_ ?_ hrange)
  · rw [← hfix]
    rfl
  · rw [← hfix']
    rfl

/-- A fix over two lines on a diagnostic of one covers a quote marker, and a fix in the comment for
a directive covers what stands as many columns from the start of the comment in the document. -/
theorem Document.not_fixesKeepText :
    ¬FixesKeepText "> ```js\n> a\n> b\n> ```\n".toList ∧
      ¬FixesKeepText "<!-- eslint x -->\n\n```js\na\n```\n".toList := by
  constructor
  · exact not_fixesKeepText_of_any { line := 1, column := 0, fix := some ⟨0, 3, "x"⟩ }
      { line := 2, column := 2, fix := some ⟨10, 15, "x"⟩ } rfl rfl (by decide +kernel)
  · exact not_fixesKeepText_of_any { line := 1, column := 2, fix := some ⟨2, 8, "y"⟩ }
      { line := 1, column := 0, fix := some ⟨0, 6, "y"⟩ } rfl rfl (by decide +kernel)

end FencedCode
