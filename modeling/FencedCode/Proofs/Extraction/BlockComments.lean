import FencedCode.Proofs.Directive.Grammar
import FencedCode.Proofs.Extraction.Comments
import FencedCode.Proofs.Fragment.ContentOrder

/-!
# How a linter reads the directives of a source

A linter ends a block comment at the first closer behind its opener. So a directive is one comment
exactly when no closer is in its text. The main statement says that a source all of whose directives
are free of closers starts with one comment for each and then has its content; and that the first
directive with a closer ends early, so that the rest of it is read as code. The grammar of
directives lets such texts through.
-/

namespace FencedCode

/-- Whether the only closer of block comments behind a text, up to the one after it, is that one. -/
def EndsAtOwnCloser (text : List Char) : Prop :=
  ∀ before after, text ++ commentClosing = before ++ commentClosing ++ after → after = []

/-- That is the case exactly when the text holds no closer: none lies across its end. -/
theorem endsAtOwnCloser_iff {text : List Char} :
    EndsAtOwnCloser text ↔ ¬commentClosing <:+: text := by
  constructor
  · rintro hends ⟨before, after, rfl⟩
    have hnil := hends before (after ++ commentClosing) (by simp)
    simp [commentClosing] at hnil
  · intro hfree before after heq
    rcases List.eq_nil_or_concat after with rfl | ⟨init, last, rfl⟩
    · rfl
    · exfalso
      have hcut : text ++ ['*'] = before ++ commentClosing ++ init := by
        have hsplit : (text ++ ['*']) ++ ['/'] = (before ++ commentClosing ++ init) ++ [last] := by
          simpa [commentClosing] using heq
        exact (List.append_inj' hsplit rfl).1
      rcases List.eq_nil_or_concat init with rfl | ⟨more, last', rfl⟩
      · -- the text would end in the slash of the closer
        have hlast := congrArg List.getLast? hcut
        simp [commentClosing] at hlast
      · apply hfree
        have hsplit : text ++ ['*'] = (before ++ commentClosing ++ more) ++ [last'] := by
          simpa using hcut
        exact ⟨before, more, (List.append_inj' hsplit rfl).1.symm⟩

/-- A text with a closer has a first one. -/
private theorem exists_first_closing {text : List Char} (h : commentClosing <:+: text) :
    ∃ body more, text = body ++ commentClosing ++ more ∧ EndsAtOwnCloser body := by
  obtain ⟨body, more, htext⟩ := h
  have hlt : body.length < text.length := by
    have hpos : 0 < commentClosing.length := by decide
    rw [← htext, List.length_append, List.length_append]
    omega
  by_cases hbody : commentClosing <:+: body
  · obtain ⟨first, rest, heq, hends⟩ := exists_first_closing hbody
    refine ⟨first, rest ++ commentClosing ++ more, ?_, hends⟩
    rw [← htext, heq]
    simp
  · exact ⟨body, more, htext.symm, endsAtOwnCloser_iff.mpr hbody⟩
termination_by text.length

/-- Characters in front of a text add no closer when no asterisk is among them. -/
private theorem closing_infix_append_left {lead : List Char} (h : '*' ∉ lead) (cs : List Char) :
    commentClosing <:+: lead ++ cs ↔ commentClosing <:+: cs := by
  induction lead with
  | nil => rfl
  | cons c lead ih =>
    rw [List.mem_cons, not_or] at h
    rw [List.cons_append, List.infix_cons_iff, ih h.2]
    refine ⟨fun hcs ↦ hcs.resolve_left fun hprefix ↦ ?_, .inr⟩
    exact h.1 (List.cons_prefix_cons.mp hprefix).1

/-- Characters behind it add none when no slash is among them. -/
private theorem closing_infix_append_right {tail : List Char} (h : '/' ∉ tail) (cs : List Char) :
    commentClosing <:+: cs ++ tail ↔ commentClosing <:+: cs := by
  induction tail using List.reverseRecOn with
  | nil => rw [List.append_nil]
  | append_singleton tail c ih =>
    rw [List.mem_append, List.mem_singleton, not_or] at h
    rw [← List.append_assoc, List.infix_concat_iff, ih h.1]
    refine ⟨fun hcs ↦ hcs.resolve_left fun hsuffix ↦ ?_, .inr⟩
    have hlast := hsuffix.getLast (by decide)
    rw [List.getLast_concat] at hlast
    exact h.2 hlast

/-- An HTML text says a closer exactly when it holds one: the delimiters around what it says and the
blanks beside them make none. -/
theorem Directive.closing_infix_iff {html said : List Char}
    (h : Directive.text? html = some said) :
    commentClosing <:+: said ↔ commentClosing <:+: html := by
  obtain ⟨⟨before, after, hbefore, hafter, hcomment⟩, -⟩ := Directive.reads_of_text? h
  obtain ⟨lead, hlead, hleadBlank, -⟩ := Text.exists_trimStart html
  obtain ⟨tail, htail, htailBlank, -⟩ := Text.exists_trimEnd (Text.trimStart html)
  have hhtml : html = (lead ++ "<!--".toList ++ before) ++ said ++
      (after ++ "-->".toList ++ tail) := by
    rw [hlead, htail, ← Text.trim, hcomment]
    simp only [List.append_assoc]
  have hnot {blanks : List Char} (hblanks : ∀ c ∈ blanks, Text.isBlank c = true) {c : Char}
      (hc : Text.isBlank c = false) : c ∉ blanks := by
    intro hmem
    rw [hblanks c hmem] at hc
    cases hc
  rw [hhtml, closing_infix_append_right, closing_infix_append_left]
  · have hdelimiter : '*' ∉ "<!--".toList := by decide
    simp only [List.mem_append, not_or]
    exact ⟨⟨hnot hleadBlank (by decide), hdelimiter⟩, hnot hbefore (by decide)⟩
  · have hdelimiter : '/' ∉ "-->".toList := by decide
    simp only [List.mem_append, not_or]
    exact ⟨⟨hnot hafter (by decide), hdelimiter⟩, hnot htailBlank (by decide)⟩

/-- Whether a text is some block comments, each ended by its first closer and on lines of its own,
and then `rest`. -/
inductive ReadsComments : Nat → List Char → List Char → Prop
  | nil (rest : List Char) : ReadsComments 0 rest rest
  | cons {n : Nat} {body cs rest : List Char} (hends : EndsAtOwnCloser body)
      (hrest : ReadsComments n cs rest) :
      ReadsComments (n + 1) (commentOpening ++ body ++ commentClosing ++ '\n' :: cs) rest

private theorem directiveText_append (ds ds' : List Directive) :
    directiveText (ds ++ ds') = directiveText ds ++ directiveText ds' := by
  rw [directiveText, List.flatMap_append, Text.joinLines_append]
  rfl

private theorem directiveText_cons (d : Directive) (ds : List Directive) : directiveText (d :: ds) =
    commentOpening ++ d.text ++ commentClosing ++ '\n' :: directiveText ds := by
  rw [directiveText, List.flatMap_cons, Text.joinLines_append, Directive.commentLines,
    Text.joinLines_splitFeeds, List.append_assoc]
  rfl

/-- Directives without closers are as many comments. -/
theorem readsComments_directiveText {ds : List Directive}
    (h : ∀ d ∈ ds, ¬commentClosing <:+: d.text) (rest : List Char) :
    ReadsComments ds.length (directiveText ds ++ rest) rest := by
  induction ds with
  | nil => exact .nil rest
  | cons d ds ih =>
    obtain ⟨hd, hds⟩ := List.forall_mem_cons.mp h
    rw [directiveText_cons, List.append_assoc, List.cons_append]
    exact .cons (endsAtOwnCloser_iff.mpr hd) (ih hds)

/-- What a node says as a directive is what its HTML text says. -/
theorem Node.text?_of_directive? {n : Node} {d : Directive} (h : n.directive? = some d) :
    Directive.text? (n.value.getD []) = some d.text := by
  unfold directive? at h
  split at h
  · obtain ⟨text, htext, rfl⟩ := Option.map_eq_some_iff.mp h
    exact htext
  · cases h

namespace Document

/-- The comment for what an HTML text says ends at its own closer exactly when it says no closer,
and it says one whenever it holds one. A source is the comments of its directives and then its
content; when none of them says a closer, a linter reads as many comments and then the content. The
first one that does ends at the closer in its text, and the rest of it is read as code. -/
theorem readsComments_source (d : Document) (o : Selection) (name : String) {c : Candidate}
    (hc : c ∈ declaredCandidates o name d.root.preorder) {b : SourceBlock}
    (hb : c.block? d.lines = some b) :
    (∀ html said, Directive.text? html = some said →
      (EndsAtOwnCloser said ↔ ¬commentClosing <:+: said) ∧
        (commentClosing <:+: said ↔ commentClosing <:+: html)) ∧
    (∀ d ∈ c.directives, ∃ html, Directive.text? html = some d.text) ∧
    ∃ content, b.source.text = directiveText c.directives ++ content ∧
      ((∀ d ∈ c.directives, ¬commentClosing <:+: d.text) →
        ReadsComments c.directives.length b.source.text content) ∧
      ∀ before d after, c.directives = before ++ d :: after →
        (∀ e ∈ before, ¬commentClosing <:+: e.text) → commentClosing <:+: d.text →
          ∃ body more, d.text = body ++ commentClosing ++ more ∧ EndsAtOwnCloser body ∧
            ReadsComments before.length b.source.text (commentOpening ++ body ++ commentClosing ++
              (more ++ commentClosing ++ '\n' :: (directiveText after ++ content))) := by
  obtain ⟨tag, body, content, h⟩ := Candidate.exists_madeOf_of_block? hb
  refine ⟨fun html said hsaid ↦ ⟨endsAtOwnCloser_iff, Directive.closing_infix_iff hsaid⟩,
    fun d hd ↦ ?_, _, h.text_eq, fun hfree ↦ ?_, ?_⟩
  · obtain ⟨m, -, hsays⟩ := exists_node_of_mem_directives hc hd
    exact ⟨_, Node.text?_of_directive? hsays⟩
  · rw [h.text_eq]
    exact readsComments_directiveText hfree _
  · intro before d after hsplit hbefore hd
    obtain ⟨first, more, heq, hends⟩ := exists_first_closing hd
    have hreads := readsComments_directiveText hbefore
    refine ⟨first, more, heq, hends, ?_⟩
    rw [h.text_eq, hsplit, directiveText_append, directiveText_cons, heq]
    simpa using hreads _

/-- A directive of two lines is one comment, and the rest of the source is the content. -/
theorem readsComments_source_directedText :
    ∃ c ∈ declaredCandidates {} "doc.md" (ofText directedText).root.preorder, ∃ b,
      c.block? (LineIndex.ofText directedText) = some b ∧
        (∀ d ∈ c.directives, ¬commentClosing <:+: d.text) ∧
          ReadsComments 1 b.source.text ['b', '\n'] := by
  have htest : (declaredCandidates {} "doc.md" (ofText directedText).root.preorder).any (fun c ↦
      (c.block? (LineIndex.ofText directedText)).any fun b ↦ c.directives = [directedComment] ∧
        b.source.text = directiveText [directedComment] ++ ['b', '\n']) = true := by
    decide +kernel
  obtain ⟨c, hc, htest⟩ := List.any_eq_true.mp htest
  obtain ⟨b, hb, htest⟩ := (Option.any_eq_true _ _).mp htest
  obtain ⟨hd, htext⟩ := of_decide_eq_true htest
  have hfree : ∀ d ∈ c.directives, ¬commentClosing <:+: d.text := by
    rw [hd]
    decide +kernel
  obtain ⟨-, -, content, hsource, hreads, -⟩ := readsComments_source _ {} "doc.md" hc hb
  rw [hd, htext] at hsource
  obtain rfl := List.append_cancel_left hsource
  have hone := hreads hfree
  rw [hd] at hone
  exact ⟨c, hc, b, hb, hfree, hone⟩

/-- A directive with a closer in its text is more than one comment. -/
theorem not_endsAtOwnCloser :
    let text := "<!-- eslint a */ alert(1) -->\n\n```js\nx\n```\n".toList
    ¬∀ c ∈ declaredCandidates {} "doc.md" (ofText text).root.preorder,
      ∀ d ∈ c.directives, EndsAtOwnCloser d.text := by
  intro text hends
  have htest : (declaredCandidates {} "doc.md" (ofText text).root.preorder).any (fun c ↦
      c.directives.any (·.text = "eslint a */ alert(1)".toList)) = true := by
    decide +kernel
  obtain ⟨c, hc, htest⟩ := List.any_eq_true.mp htest
  obtain ⟨d, hd, htest⟩ := List.any_eq_true.mp htest
  have hfree := endsAtOwnCloser_iff.mp (hends c hc d hd)
  rw [of_decide_eq_true htest] at hfree
  exact hfree (by decide +kernel)

end Document

end FencedCode
