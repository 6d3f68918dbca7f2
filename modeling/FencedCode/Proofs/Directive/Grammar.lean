import FencedCode.Directive
import FencedCode.Proofs.Text.Blank

/-!
# The grammar of directives

A comment can be read as `b` when `b` stands between its delimiters with blanks around it and starts
like a directive. Blanks before the closing delimiter are left out of `b` or counted in, so there
may be several readings. The main statement is that the shortest one is what the comment says, and
that it says nothing when there is none. The shortest reading does not end in a blank that it could
do without, and it is the shortest one of the plain comment around it, too.
-/

namespace FencedCode.Directive

/-- How a directive starts, and what may follow: `eslint` and a character that does not continue the
word, or `global` with a blank and any character. -/
inductive Starts : List Char → List Char → Prop
  | eslint {c : Char} {cs : List Char} (hc : Text.isWord c = false) :
      Starts "eslint".toList (c :: cs)
  | global {blank c : Char} {cs : List Char} (hblank : Text.isBlank blank = true) :
      Starts ("global".toList ++ [blank]) (c :: cs)

/-- Whether a comment can be read as `b`. -/
structure Reads (comment b : List Char) : Prop where
  comment_eq : ∃ before after, (∀ c ∈ before, Text.isBlank c = true) ∧
    (∀ c ∈ after, Text.isBlank c = true) ∧
      comment = "<!--".toList ++ (before ++ (b ++ (after ++ "-->".toList)))
  starts : ∃ lead rest, b = lead ++ rest ∧ Starts lead rest

namespace Starts

variable {lead rest lead' rest' : List Char}

/-- What starts with something is not empty. -/
theorem ne_nil (h : Starts lead rest) : rest ≠ [] := by
  cases h with
  | eslint => exact List.cons_ne_nil _ _
  | global => exact List.cons_ne_nil _ _

/-- Only the first character that follows matters. -/
theorem of_cons {c : Char} {cs : List Char} (h : Starts lead (c :: cs)) (cs' : List Char) :
    Starts lead (c :: cs') := by
  cases h with
  | eslint hc => exact .eslint hc
  | global hblank => exact .global hblank

/-- The start of a text does not depend on what is added at its end. -/
theorem append (h : Starts lead rest) (more : List Char) : Starts lead (rest ++ more) := by
  obtain ⟨c, cs, rfl⟩ := List.exists_cons_of_ne_nil h.ne_nil
  exact h.of_cons _

private theorem of_append {more : List Char} (h : Starts lead (rest ++ more)) (hne : rest ≠ []) :
    Starts lead rest := by
  obtain ⟨c, cs, rfl⟩ := List.exists_cons_of_ne_nil hne
  exact of_cons h cs

/-- No directive starts with a blank. -/
private theorem isBlank_head? (h : Starts lead rest) (more : List Char) :
    ∀ c, (lead ++ more).head? = some c → Text.isBlank c = false := by
  cases h with
  | eslint =>
    intro c hc
    obtain rfl : 'e' = c := Option.some.inj hc
    decide
  | global =>
    intro c hc
    obtain rfl : 'g' = c := Option.some.inj hc
    decide

/-- A text starts like a directive in one way. -/
theorem unique (h : Starts lead rest) (h' : Starts lead' rest')
    (heq : lead ++ rest = lead' ++ rest') :
    lead = lead' := by
  cases h with
  | eslint =>
    cases h' with
    | eslint => rfl
    | global => cases heq
  | global =>
    cases h' with
    | eslint => cases heq
    | global => exact List.append_inj_left heq rfl

end Starts

/-! ## Readings -/

namespace Reads

variable {comment b b' : List Char}

/-- Two readings of a comment differ in the blanks at their ends alone. -/
private theorem exists_append_eq (h : Reads comment b) (h' : Reads comment b') : ∃ after after',
    (∀ c ∈ after, Text.isBlank c = true) ∧ (∀ c ∈ after', Text.isBlank c = true) ∧
      b ++ after = b' ++ after' := by
  obtain ⟨⟨before, after, hbefore, hafter, hcomment⟩, lead, rest, rfl, hstarts⟩ := h
  obtain ⟨⟨before', after', hbefore', hafter', hcomment'⟩, lead', rest', rfl, hstarts'⟩ := h'
  refine ⟨after, after', hafter, hafter', ?_⟩
  have htrim := Text.trimStart_append hbefore
    (hstarts.isBlank_head? (rest ++ (after ++ "-->".toList)))
  have htrim' := Text.trimStart_append hbefore'
    (hstarts'.isBlank_head? (rest' ++ (after' ++ "-->".toList)))
  have hinner := List.append_cancel_left (hcomment.symm.trans hcomment')
  rw [List.append_assoc, List.append_assoc] at hinner
  rw [hinner, htrim'] at htrim
  apply (List.append_left_inj "-->".toList).mp
  simpa only [List.append_assoc] using htrim.symm

/-- Blanks at the end of a reading can be left out when enough of it is left. -/
theorem of_append {blanks lead rest : List Char} (h : Reads comment (lead ++ rest ++ blanks))
    (hblanks : ∀ c ∈ blanks, Text.isBlank c = true) (hstarts : Starts lead rest) :
    Reads comment (lead ++ rest) := by
  obtain ⟨before, after, hbefore, hafter, hcomment⟩ := h.comment_eq
  refine ⟨⟨before, blanks ++ after, hbefore, ?_, ?_⟩, lead, rest, rfl, hstarts⟩
  · intro c hc
    rcases List.mem_append.mp hc with hc | hc
    · exact hblanks c hc
    · exact hafter c hc
  · simpa only [List.append_assoc] using hcomment

end Reads

/-! ## What a comment says -/

private theorem after?_eq_some_iff {lead cs rest : List Char} :
    after? lead cs = some rest ↔ cs = lead ++ rest := by
  unfold after?
  constructor
  · intro h
    split at h
    · next hlead =>
      rw [← Option.some.inj h]
      exact List.prefix_iff_eq_append.mp (List.isPrefixOf_iff_prefix.mp hlead) |>.symm
    · cases h
  · rintro rfl
    rw [if_pos (List.isPrefixOf_iff_prefix.mpr (List.prefix_append _ _)), List.drop_left]

private theorem before?_eq_some_iff {tail cs init : List Char} :
    before? tail cs = some init ↔ cs = init ++ tail := by
  unfold before?
  constructor
  · intro h
    split at h
    · next htail =>
      rw [← Option.some.inj h]
      exact List.suffix_iff_eq_append.mp (List.isSuffixOf_iff_suffix.mp htail) |>.symm
    · cases h
  · rintro rfl
    rw [if_pos (List.isSuffixOf_iff_suffix.mpr (List.suffix_append _ _)), List.length_append,
      Nat.add_sub_cancel, List.take_left]

/-- Between the delimiters stands what starts like a directive; the character that has to follow is
kept, and then all but the blanks at the end. -/
theorem body?_eq_some_iff {cs b : List Char} : body? cs = some b ↔
    ∃ lead c rest, Starts lead (c :: rest) ∧ cs = lead ++ c :: rest ∧
      b = lead ++ c :: Text.trimEnd rest := by
  unfold body?
  constructor
  · intro h
    split at h
    · next rest hafter =>
      rw [after?_eq_some_iff] at hafter
      split at h
      · next c rest =>
        split at h
        · cases h
        · next hc =>
          exact ⟨_, c, rest, .eslint (by simpa using hc), hafter, (Option.some.inj h).symm⟩
      · cases h
    · split at h
      · next blank rest hafter =>
        rw [after?_eq_some_iff] at hafter
        split at h
        · next hblank =>
          obtain ⟨more, hmore, rfl⟩ := Option.map_eq_some_iff.mp h
          cases rest with
          | nil => cases hmore
          | cons c rest =>
            obtain rfl := Option.some.inj hmore
            exact ⟨_, c, rest, .global hblank, hafter, rfl⟩
        · cases h
      · cases h
  · rintro ⟨lead, c, rest, hstarts, rfl, rfl⟩
    cases hstarts with
    | eslint hc =>
      rw [after?_eq_some_iff.mpr rfl]
      simp only [hc, shortestLead?, Option.map_some]
      rfl
    | @global blank _ _ hblank =>
      have hnone : after? "eslint".toList ("global".toList ++ [blank] ++ c :: rest) = none := rfl
      have hsome : after? "global".toList ("global".toList ++ [blank] ++ c :: rest) =
          some (blank :: c :: rest) := after?_eq_some_iff.mpr (List.append_assoc _ _ _)
      rw [hnone, hsome]
      simp only [hblank, shortestLead?, Option.map_some, if_true]

/-- A comment says something when what stands between its delimiters, behind the blanks there,
starts like a directive. -/
theorem text?_eq_some_iff {html b : List Char} : text? html = some b ↔
    ∃ before lead c rest, (∀ c ∈ before, Text.isBlank c = true) ∧ Starts lead (c :: rest) ∧
      Text.trim html = "<!--".toList ++ (before ++ (lead ++ c :: rest ++ "-->".toList)) ∧
        b = lead ++ c :: Text.trimEnd rest := by
  unfold text?
  constructor
  · intro h
    obtain ⟨inner, hinner, h⟩ := Option.bind_eq_some_iff.mp h
    obtain ⟨cs, hcs, hbody⟩ := Option.bind_eq_some_iff.mp h
    rw [after?_eq_some_iff] at hinner
    rw [before?_eq_some_iff] at hcs
    obtain ⟨lead, c, rest, hstarts, rfl, rfl⟩ := body?_eq_some_iff.mp hbody
    obtain ⟨before, hsplit, hbefore, -⟩ := Text.exists_trimStart inner
    rw [hcs] at hsplit
    exact ⟨before, lead, c, rest, hbefore, hstarts, by rw [hinner, hsplit], rfl⟩
  · rintro ⟨before, lead, c, rest, hbefore, hstarts, hcomment, rfl⟩
    have htrim : Text.trimStart (before ++ (lead ++ c :: rest ++ "-->".toList)) =
        lead ++ c :: rest ++ "-->".toList := by
      apply Text.trimStart_append hbefore
      rw [List.append_assoc]
      exact hstarts.isBlank_head? _
    rw [after?_eq_some_iff.mpr hcomment, Option.bind_some, before?_eq_some_iff.mpr htrim,
      Option.bind_some]
    exact body?_eq_some_iff.mpr ⟨lead, c, rest, hstarts, rfl, rfl⟩

/-- What a comment says is a reading of it. -/
theorem reads_of_text? {html b : List Char} (h : text? html = some b) :
    Reads (Text.trim html) b := by
  obtain ⟨before, lead, c, rest, hbefore, hstarts, hcomment, rfl⟩ := text?_eq_some_iff.mp h
  obtain ⟨after, hrest, hafter, -⟩ := Text.exists_trimEnd rest
  refine ⟨⟨before, after, hbefore, hafter, ?_⟩, lead, _, rfl, hstarts.of_cons _⟩
  have hcs : c :: rest = c :: Text.trimEnd rest ++ after := by rw [List.cons_append, ← hrest]
  rw [hcomment, hcs]
  simp only [List.append_assoc]

/-- No reading is shorter. -/
theorem length_le_of_reads {html b b' : List Char} (h : text? html = some b)
    (h' : Reads (Text.trim html) b') : b.length ≤ b'.length := by
  obtain ⟨after, after', hafter, hafter', heq⟩ := (reads_of_text? h).exists_append_eq h'
  obtain ⟨-, lead, c, rest, -, hstarts, -, rfl⟩ := text?_eq_some_iff.mp h
  obtain ⟨lead', rest', rfl, hstarts'⟩ := h'.starts
  obtain ⟨c', rest', rfl⟩ := List.exists_cons_of_ne_nil hstarts'.ne_nil
  rw [List.append_assoc, List.append_assoc] at heq
  obtain rfl := (hstarts.of_cons (Text.trimEnd rest ++ after)).unique (hstarts'.append after') heq
  -- behind the first character both end where the blanks at the end begin
  have htail : Text.trimEnd rest ++ after = rest' ++ after' :=
    (List.cons.inj (List.append_cancel_left heq)).2
  have htrim : Text.trimEnd rest = Text.trimEnd rest' := by
    rw [← Text.trimEnd_append_blanks rest' hafter', ← htail, Text.trimEnd_append_blanks _ hafter,
      Text.trimEnd_trimEnd]
  have hlength := (Text.trimEnd_prefix rest').length_le
  rw [List.length_append, List.length_append, List.length_cons, List.length_cons, htrim]
  omega

/-- A comment that can be read says something. -/
theorem Reads.exists_text? {html b : List Char} (h : Reads (Text.trim html) b) :
    ∃ b', text? html = some b' := by
  obtain ⟨⟨before, after, hbefore, -, hcomment⟩, lead, rest, rfl, hstarts⟩ := h
  obtain ⟨c, cs, rfl⟩ := List.exists_cons_of_ne_nil hstarts.ne_nil
  refine ⟨_, text?_eq_some_iff.mpr ⟨before, lead, c, cs ++ after, hbefore, hstarts.append after,
    ?_, rfl⟩⟩
  rw [hcomment]
  simp only [List.append_assoc, List.cons_append]

/-- A comment says its shortest reading. -/
theorem text?_eq_some_iff_shortest {html b : List Char} : text? html = some b ↔
    Reads (Text.trim html) b ∧ ∀ b', Reads (Text.trim html) b' → b.length ≤ b'.length := by
  constructor
  · intro h
    exact ⟨reads_of_text? h, fun b' h' ↦ length_le_of_reads h h'⟩
  · rintro ⟨hreads, hshortest⟩
    obtain ⟨b', hb'⟩ := hreads.exists_text?
    have hreads' := reads_of_text? hb'
    obtain ⟨after, after', -, -, heq⟩ := hreads.exists_append_eq hreads'
    have hlength := Nat.le_antisymm (hshortest b' hreads') (length_le_of_reads hb' hreads)
    rw [hb', List.append_inj_left heq hlength]

/-- A comment says nothing when it cannot be read. -/
theorem text?_eq_none_iff {html : List Char} :
    text? html = none ↔ ∀ b, ¬Reads (Text.trim html) b := by
  constructor
  · intro hnone b h
    obtain ⟨b', hb'⟩ := h.exists_text?
    rw [hnone] at hb'
    cases hb'
  · intro hnone
    apply Option.eq_none_iff_forall_ne_some.mpr
    intro b h
    exact hnone b (reads_of_text? h)

/-- What a comment says ends in a blank only when that is the one character that has to follow. -/
private theorem eq_singleton_of_isBlank {html lead rest : List Char} (h : text? html = some (lead ++ rest))
    (hstarts : Starts lead rest) {c : Char} (hc : rest.getLast? = some c)
    (hblank : Text.isBlank c = true) : rest = [c] := by
  obtain ⟨init, rfl⟩ := List.getLast?_eq_some_iff.mp hc
  by_cases hinit : init = []
  · rw [hinit, List.nil_append]
  · -- without the blank it would be shorter
    have hreads := reads_of_text? h
    rw [← List.append_assoc] at hreads
    have hshorter := hreads.of_append (List.forall_mem_singleton.mpr hblank)
      (hstarts.of_append hinit)
    have hle := length_le_of_reads h hshorter
    simp only [List.length_append, List.length_singleton] at hle
    omega

/-- A plain comment has no blanks around it. -/
private theorem trim_comment (b : List Char) :
    Text.trim ("<!-- ".toList ++ b ++ " -->".toList) = "<!-- ".toList ++ b ++ " -->".toList := by
  have hstart : Text.trimStart ("<!-- ".toList ++ b ++ " -->".toList) =
      "<!-- ".toList ++ b ++ " -->".toList := by
    apply Text.trimStart_of_head?
    intro c hc
    obtain rfl : '<' = c := Option.some.inj hc
    decide
  rw [Text.trim, hstart]
  apply Text.trimEnd_of_getLast?
  intro c hc
  have hlast : " -->".toList.getLast? = some '>' := rfl
  rw [List.getLast?_append, hlast] at hc
  obtain rfl : '>' = c := Option.some.inj hc
  decide

/-- What a comment says is said by the plain comment around it, too. -/
theorem text?_comment {html b : List Char} (h : text? html = some b) :
    text? ("<!-- ".toList ++ b ++ " -->".toList) = some b := by
  have hreads := reads_of_text? h
  have hspace : ∀ c ∈ [' '], Text.isBlank c = true := List.forall_mem_singleton.mpr rfl
  have hplain : Reads ("<!-- ".toList ++ b ++ " -->".toList) b := by
    refine ⟨⟨[' '], [' '], hspace, hspace, ?_⟩, hreads.starts⟩
    rw [List.append_assoc]
    rfl
  rw [text?_eq_some_iff_shortest, trim_comment]
  refine ⟨hplain, fun b' h' ↦ ?_⟩
  apply Nat.le_of_not_lt
  intro hshorter
  -- a shorter reading would be one of the first comment, as well
  obtain ⟨after, after', -, hafter', heq⟩ := hplain.exists_append_eq h'
  obtain ⟨blanks, rfl⟩ : b' <+: b :=
    List.prefix_of_prefix_length_le ⟨after', heq.symm⟩ (List.prefix_append b after) (by omega)
  have hblanks : ∀ c ∈ blanks, Text.isBlank c = true := by
    intro c hc
    rw [List.append_assoc] at heq
    apply hafter' c
    rw [← List.append_cancel_left heq]
    exact List.mem_append_left _ hc
  obtain ⟨lead, rest, rfl, hstarts⟩ := h'.starts
  have hle := length_le_of_reads h (hreads.of_append hblanks hstarts)
  omega

/-- A comment says its shortest reading, and nothing when there is none. What it says ends in a
blank only when that is the one character that has to follow the start of a directive, and is said
by the plain comment around it, too. -/
theorem text?_spec (html : List Char) :
    (∀ b, text? html = some b ↔
      Reads (Text.trim html) b ∧ ∀ b', Reads (Text.trim html) b' → b.length ≤ b'.length) ∧
    (text? html = none ↔ ∀ b, ¬Reads (Text.trim html) b) ∧
    ∀ b, text? html = some b →
      (∀ lead rest, b = lead ++ rest → Starts lead rest →
        ∀ c, b.getLast? = some c → Text.isBlank c = true → rest = [c]) ∧
      text? ("<!-- ".toList ++ b ++ " -->".toList) = some b := by
  refine ⟨fun b ↦ text?_eq_some_iff_shortest, text?_eq_none_iff, fun b h ↦ ⟨?_, text?_comment h⟩⟩
  rintro lead rest rfl hstarts c hc hblank
  apply eq_singleton_of_isBlank h hstarts _ hblank
  rw [List.getLast?_append] at hc
  rwa [List.getLast?_eq_some_getLast hstarts.ne_nil] at hc ⊢

-- the closing delimiter is the last one
example : text? "<!-- eslint --> x -->\n".toList = some "eslint --> x".toList := by decide

-- a blank that has to follow is kept
example : text? "<!-- eslint  -->".toList = some "eslint ".toList := by decide

end FencedCode.Directive
