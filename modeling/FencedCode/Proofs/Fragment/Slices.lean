import FencedCode.Proofs.Fragment.Offsets

/-!
# Slices of a source and of its document

Between two places in the content of a source and the same two places in the document stand the same
characters, terminators left aside, but for the container prefixes of the lines in between: the
document has them and the source does not.
-/

namespace FencedCode

/-- A text woven with some pieces: a plain text with the pieces put in, one after the other. -/
inductive Woven : List (List Char) → List Char → List Char → Prop
  | nil : Woven [] [] []
  | snoc {pieces : List (List Char)} {plain woven : List Char} (text piece : List Char) :
    Woven pieces plain woven → Woven (pieces ++ [piece]) (plain ++ text) (woven ++ text ++ piece)

/-- Weaving pieces in adds their lengths. -/
theorem Woven.length_eq {pieces : List (List Char)} {plain woven : List Char}
    (h : Woven pieces plain woven) : woven.length = plain.length + pieces.flatten.length := by
  induction h with
  | nil => rfl
  | snoc text piece _ ih =>
    simp only [List.length_append, List.flatten_append, List.flatten_singleton, ih]
    omega

/-- Nothing was put in exactly when all pieces are empty. -/
theorem Woven.eq_plain_iff {pieces : List (List Char)} {plain woven : List Char}
    (h : Woven pieces plain woven) : woven = plain ↔ ∀ piece ∈ pieces, piece = [] := by
  constructor
  · intro heq
    have hlength := h.length_eq
    rw [heq] at hlength
    exact List.flatten_eq_nil_iff.mp (List.length_eq_zero_iff.mp (by omega))
  · intro hnil
    induction h with
    | nil => rfl
    | snoc text piece _ ih =>
      rw [ih fun p hp ↦ hnil p (by simp [hp]), hnil piece (by simp), List.append_nil]

/-- The container prefix that was taken off line number `m` of the document; none below the last
line of the code block. -/
def strippedPrefix (x : LineIndex) (n : Node) (m : Nat) : List Char :=
  match x.lineText? m with
  | none => []
  | some line =>
    if m ≤ n.range.stop.line then line.take (dropIndent (containerIndent x n) line).1 else []

/-- What was taken off the `j` lines of the document after the one for content line `k`. -/
def prefixesAfter (x : LineIndex) (n : Node) (k j : Nat) : List (List Char) :=
  (List.range j).map fun i ↦
    Text.withoutBreaks (strippedPrefix x n (n.range.start.line + 1 + (k + (i + 1))))

private theorem prefixesAfter_succ (x : LineIndex) (n : Node) (k j : Nat) :
    prefixesAfter x n k (j + 1) = prefixesAfter x n k j ++
      [Text.withoutBreaks (strippedPrefix x n (n.range.start.line + 1 + (k + (j + 1))))] := by
  rw [prefixesAfter, List.range_succ, List.map_append]
  rfl

/-- Places `r` in a source and `r'` in its document that are `lead` behind the start of content line
`k`, where the document has a container prefix, and terminators are left aside. -/
structure SourceBlock.SamePlace (b : SourceBlock) (x : LineIndex) (n : Node) (ds : List Directive)
    (k r r' : Nat) (lead : List Char) : Prop where
  source : ∃ upto, upto <+: b.source.text ∧ Text.byteLength upto = r ∧
    Text.withoutBreaks upto =
      Text.withoutBreaks (b.map.generated.textBefore (directiveHeight ds + 1 + k)) ++ lead
  document : ∃ upto, upto <+: x.text ∧ Text.byteLength upto = r' ∧
    Text.withoutBreaks upto = Text.withoutBreaks (x.textBefore (n.range.start.line + 1 + k)) ++
      Text.withoutBreaks (strippedPrefix x n (n.range.start.line + 1 + k)) ++ lead

/-- Leaving out a carriage return at the end of a text makes no difference to its leading parts. -/
private theorem withoutBreaks_take_min {g : Line} {text : List Char} (h : g.raw = text ++ ['\n'])
    (hfeed : '\n' ∉ text) (i : Nat) :
    Text.withoutBreaks (text.take (min i g.text.length)) = Text.withoutBreaks (text.take i) := by
  obtain ⟨tail, htail, hbreaks⟩ : ∃ tail, text = g.text ++ tail ∧ ∀ c ∈ tail, c = '\r' := by
    have hterm := Text.terminated_append hfeed
    rw [← h] at hterm
    rcases Line.raw_eq_of_terminated g.start hterm with hraw | hraw
    · exact ⟨[], by simpa using List.append_cancel_right (h.symm.trans hraw), by simp⟩
    · refine ⟨['\r'], (List.append_left_inj ['\n']).mp ?_, by simp⟩
      rw [← h, List.append_assoc]
      exact hraw
  have hrest : Text.withoutBreaks (tail.take (i - g.text.length)) = [] :=
    Text.withoutBreaks_eq_nil.mpr fun c hc ↦ .inl (hbreaks c (List.mem_of_mem_take hc))
  rw [htail, List.take_append_of_le_length (Nat.min_le_right _ _), List.take_append,
    Text.withoutBreaks_append, hrest, List.append_nil, ← List.take_take, List.take_length]

namespace SourceBlock.MadeOf

variable {x : LineIndex} {n : Node} {ds : List Directive} {id : FragmentId} {b : SourceBlock}
  {tag : List Char} {body : CodeLines} {content : List (Nat × List Char)}

private theorem strippedPrefix_content (h : MadeOf x n ds id b tag body content) {k m : Nat}
    {line : List Char} (hk : content[k]? = some (m, line)) :
    strippedPrefix x n m = line.take (dropIndent (containerIndent x n) line).1 := by
  obtain ⟨hm, hline⟩ := h.getElem?_content hk
  have hlt := (List.getElem?_eq_some_iff.mp hk).1
  have hlen := h.length_content
  have hle : m ≤ n.range.stop.line := by
    rcases CodeLines.ofNode_eq_ok h.body_eq with ⟨-, rfl⟩ | ⟨-, rfl⟩
    all_goals
      simp only at hlen
      omega
  rw [strippedPrefix, hline]
  exact if_pos hle

/-- An offset on a content line and the one in the document that it is brought back to. -/
theorem samePlace_content (h : MadeOf x n ds id b tag body content)
    (hx : x.byteLength < signedLimit) {k m : Nat} {line : List Char}
    (hk : content[k]? = some (m, line)) {g : Line}
    (hg : b.map.generated.line? (directiveHeight ds + 1 + k) = some g) {lead : List Char}
    (hlead : lead <+: (dropIndent (containerIndent x n) line).2) {r' : Nat}
    (hr : b.map.hostOffset? (g.start + Text.byteLength lead) = some r') :
    b.SamePlace x n ds k (g.start + Text.byteLength lead) r' (Text.withoutBreaks lead) := by
  obtain ⟨rfl, hline⟩ := h.getElem?_content hk
  obtain ⟨l, hl, rfl⟩ := Option.map_eq_some_iff.mp hline
  have hraw := h.raw_generated hk hg
  have hfeed : '\n' ∉ (dropIndent (containerIndent x n) l.text).2 := fun hmem ↦
    LineIndex.not_mem_text_of_line? hl (List.mem_of_mem_drop hmem)
  constructor
  · refine ⟨b.map.generated.textBefore (directiveHeight ds + 1 + k) ++ lead, ?_, ?_, ?_⟩
    · rw [← h.generated_text]
      refine LineIndex.textBefore_append_prefix hg (hlead.trans ?_)
      rw [hraw]
      exact List.prefix_append _ _
    · rw [Text.byteLength_append, LineIndex.byteLength_textBefore hg]
    · exact Text.withoutBreaks_append _ _
  · have htake := List.prefix_iff_eq_take.mp hlead
    have hoffset := h.hostOffset?_content hx hk hl hg hlead.length_le
    rw [← htake, hr] at hoffset
    obtain ⟨upto, hupto, hbytes, hbreaks⟩ := LineIndex.exists_upto hl
      ((dropIndent (containerIndent x n) l.text).1 + min lead.length g.text.length)
    have hmin := withoutBreaks_take_min hraw hfeed lead.length
    rw [← htake] at hmin
    refine ⟨upto, hupto, hbytes.trans (Option.some.inj hoffset).symm, ?_⟩
    rw [hbreaks, h.strippedPrefix_content hk, List.take_add, Text.withoutBreaks_append,
      ← List.append_assoc]
    exact congrArg _ hmin

/-- The end of a source that has content and the offset in the document that it is brought back
to. -/
theorem samePlace_end (h : MadeOf x n ds id b tag body content) (hx : x.byteLength < signedLimit)
    (hpos : 0 < body.count) {r' : Nat}
    (hr : b.map.hostOffset? (Text.byteLength b.source.text) = some r') :
    b.SamePlace x n ds body.count (Text.byteLength b.source.text) r' [] := by
  refine ⟨⟨_, List.prefix_rfl, rfl, by rw [List.append_nil, h.textBefore_end]⟩, ?_⟩
  rcases CodeLines.ofNode_eq_ok h.body_eq with ⟨-, hbody⟩ | ⟨-, hbody⟩
  · obtain ⟨l, hl, hoffset⟩ := h.hostOffset?_end_closed hx (by rw [hbody]) (by omega)
    obtain ⟨upto, hupto, hbytes, hbreaks⟩ := LineIndex.exists_upto hl
      (dropIndent (containerIndent x n) l.text).1
    have hnumber : n.range.start.line + 1 + body.count = n.range.stop.line := by
      rw [hbody] at hpos ⊢
      simp only at hpos ⊢
      omega
    refine ⟨upto, hupto, hbytes.trans (Option.some.inj (hoffset.symm.trans hr)), ?_⟩
    rw [hbreaks, hnumber, List.append_nil, strippedPrefix, LineIndex.lineText?, hl]
    simp only [Option.map_some, Nat.le_refl, if_true]
  · obtain ⟨l, hl, hoffset⟩ := h.hostOffset?_end_open hx (by rw [hbody]) hpos
    obtain ⟨upto, hupto, hbytes, hbreaks⟩ := LineIndex.exists_upto hl l.text.length
    have hnumber : n.range.start.line + body.count = n.range.stop.line := by
      rw [hbody] at hpos ⊢
      simp only at hpos ⊢
      omega
    have hnone : strippedPrefix x n (n.range.start.line + body.count + 1) = [] := by
      rw [strippedPrefix]
      split
      · rfl
      · exact if_neg (by omega)
    refine ⟨upto, hupto, hbytes.trans (Option.some.inj (hoffset.symm.trans hr)), ?_⟩
    rw [hbreaks, Nat.add_right_comm n.range.start.line 1, hnone, LineIndex.textBefore_succ hl,
      List.take_length, Text.withoutBreaks_append, LineIndex.withoutBreaks_raw hl]
    exact ((List.append_nil _).trans (List.append_nil _)).symm

/-- A place in the content of a source that is brought back to the document is there on the same
line. -/
theorem exists_samePlace (h : MadeOf x n ds id b tag body content) (hx : x.byteLength < signedLimit)
    {r r' : Nat} (hboundary : Text.IsBoundary b.source.text r)
    (hline : directiveHeight ds < (b.map.generated.position r).line)
    (hr : b.map.hostOffset? r = some r')
    (hpos : 0 < body.count ∨ r < Text.byteLength b.source.text) :
    ∃ k lead, (b.map.generated.position r).line = directiveHeight ds + 1 + k ∧ k ≤ body.count ∧
      0 < body.count ∧ b.SamePlace x n ds k r r' lead := by
  rw [← h.generated_text] at hboundary
  obtain ⟨g, before, after, lead, har, hlead, rfl, hwhole⟩ :=
    LineIndex.exists_around_position hboundary
  obtain ⟨k, hk⟩ := Nat.exists_eq_add_of_lt hline
  rw [show directiveHeight ds + k + 1 = directiveHeight ds + 1 + k by omega] at hk
  rw [hk] at har
  have hle : k ≤ body.count := by
    have hcount := LineIndex.le_lineCount har.line?_eq
    rw [h.lineCount_generated] at hcount
    omega
  refine ⟨k, ?_⟩
  rcases Nat.lt_or_eq_of_le hle with hlt | rfl
  · obtain ⟨line, hget, -⟩ := h.exists_getElem?_content hlt
    have hraw := h.raw_generated hget har.line?_eq
    rw [hraw] at hlead hwhole
    have htext := (List.prefix_concat_iff.mp hlead).resolve_left fun heq ↦
      absurd (hwhole heq) (by simp)
    exact ⟨_, hk, hle, by omega, h.samePlace_content hx hget har.line?_eq htext hr⟩
  · obtain rfl := Option.some.inj (har.line?_eq.symm.trans h.around_end.line?_eq)
    obtain rfl := List.prefix_nil.mp hlead
    have hcount := hpos.resolve_right (by simp)
    exact ⟨_, hk, hle, hcount, h.samePlace_end hx hcount hr⟩

/-- From the start of one content line to the start of a later one the document has what the source
has, woven with container prefixes. -/
theorem exists_woven (h : MadeOf x n ds id b tag body content) {k j : Nat}
    (hj : k + j ≤ body.count) : ∃ plain woven,
      Woven (prefixesAfter x n k j) plain woven ∧
      Text.withoutBreaks (b.map.generated.textBefore (directiveHeight ds + 1 + (k + j))) =
        Text.withoutBreaks (b.map.generated.textBefore (directiveHeight ds + 1 + k)) ++ plain ∧
      Text.withoutBreaks (x.textBefore (n.range.start.line + 1 + (k + j))) ++
          Text.withoutBreaks (strippedPrefix x n (n.range.start.line + 1 + (k + j))) =
        Text.withoutBreaks (x.textBefore (n.range.start.line + 1 + k)) ++
          Text.withoutBreaks (strippedPrefix x n (n.range.start.line + 1 + k)) ++ woven := by
  induction j with
  | zero => exact ⟨[], [], .nil, (List.append_nil _).symm, (List.append_nil _).symm⟩
  | succ j ih =>
    obtain ⟨plain, woven, hwoven, hplain, hdocument⟩ := ih (by omega)
    obtain ⟨line, hget, hline⟩ := h.exists_getElem?_content (k := k + j) (by omega)
    obtain ⟨l, hl, rfl⟩ := Option.map_eq_some_iff.mp hline
    obtain ⟨g, hg, hraw⟩ := h.line?_generated hget
    obtain ⟨stripped, htext, htake, -, -⟩ := exists_dropIndent (containerIndent x n) l.text
    have hline : Text.withoutBreaks l.text =
        Text.withoutBreaks (strippedPrefix x n (n.range.start.line + 1 + (k + j))) ++
          Text.withoutBreaks (dropIndent (containerIndent x n) l.text).2 := by
      rw [h.strippedPrefix_content hget, htake, ← Text.withoutBreaks_append, ← htext]
    have hfeed : Text.withoutBreaks ['\n'] = [] := rfl
    have hnext := hwoven.snoc (Text.withoutBreaks (dropIndent (containerIndent x n) l.text).2)
      (Text.withoutBreaks (strippedPrefix x n (n.range.start.line + 1 + (k + (j + 1)))))
    rw [← prefixesAfter_succ] at hnext
    refine ⟨_, _, hnext, ?_, ?_⟩
    · rw [← Nat.add_assoc k, ← Nat.add_assoc, LineIndex.textBefore_succ hg,
        Text.withoutBreaks_append, hplain, hraw, Text.withoutBreaks_append, hfeed,
        List.append_nil, List.append_assoc]
    · rw [← Nat.add_assoc k, ← Nat.add_assoc _ (k + j), LineIndex.textBefore_succ hl,
        Text.withoutBreaks_append, LineIndex.withoutBreaks_raw hl, hline, ← List.append_assoc,
        hdocument]
      simp only [List.append_assoc]

/-- Between places in the content of a source and the same places in the document stand the same
characters exactly when nothing was taken off the lines after the first one. -/
theorem withoutBreaks_slice_eq_iff (h : MadeOf x n ds id b tag body content)
    {k j start start' stop stop' : Nat} {lead lead' : List Char}
    (hstart : b.SamePlace x n ds k start start' lead)
    (hstop : b.SamePlace x n ds (k + j) stop stop' lead') (hj : k + j ≤ body.count)
    (hle : start ≤ stop) (hle' : start' ≤ stop') :
    Text.withoutBreaks (Text.slice start' stop' x.text) =
        Text.withoutBreaks (Text.slice start stop b.source.text) ↔
      ∀ lost ∈ prefixesAfter x n k j, lost = [] := by
  obtain ⟨plain, woven, hwoven, hplain, hdocument⟩ := h.exists_woven hj
  obtain ⟨⟨source, hsource, rfl, hsourceLead⟩, ⟨document, hdoc, rfl, hdocLead⟩⟩ := hstart
  obtain ⟨⟨source', hsource', rfl, hsourceLead'⟩, ⟨document', hdoc', rfl, hdocLead'⟩⟩ := hstop
  have hslice := congrArg Text.withoutBreaks (Text.append_slice hsource hsource' hle)
  have hslice' := congrArg Text.withoutBreaks (Text.append_slice hdoc hdoc' hle')
  rw [Text.withoutBreaks_append, hsourceLead, hsourceLead', hplain, List.append_assoc,
    List.append_assoc, List.append_cancel_left_eq] at hslice
  rw [Text.withoutBreaks_append, hdocLead, hdocLead', hdocument, List.append_assoc,
    List.append_assoc _ lead, List.append_cancel_left_eq] at hslice'
  rw [← hwoven.eq_plain_iff, ← List.append_right_inj lead, ← hslice', ← hslice,
    List.append_left_inj]

end SourceBlock.MadeOf

end FencedCode
