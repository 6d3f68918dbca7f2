import FencedCode.Proofs.Fragment.CodeLines

/-!
# The code on a content line

What is left of a line of a block is compared with the line of the node's value that it stands for.
They agree but for quote markers and blanks at their starts, and code is lost only where a quote
marker of the code itself is taken for one of a container.
-/

namespace FencedCode

open Markdown

/-- A line of the value stands on its line of the document behind container prefix, but for blanks
at its start, when the line is not the last one or holds no carriage return. -/
theorem Node.Shows.exists_code {text : List Char} {n : Node} {b : FencedBlock text}
    (h : n.Shows b) {k : Nat} {code line : List Char} (hcode : n.codeLines[k]? = some code)
    (hline : (LineIndex.ofText text).lineText? (n.range.start.line + 1 + k) = some line)
    (hend : n.range.start.line + 1 + k < (LineIndex.ofText text).lineCount ∨ '\r' ∉ line) :
    ∃ lead blanks rest, line = lead ++ rest ∧ code = blanks ++ rest ∧
      (∀ c ∈ lead, ContainerPrefix.isMember c = true) ∧ ∀ c ∈ blanks, Text.isBlank c = true := by
  rw [h.codeLines_eq, List.getElem?_map] at hcode
  obtain ⟨l, hl, rfl⟩ := Option.map_eq_some_iff.mp hcode
  obtain ⟨start, hline?, hisLine, hends⟩ := b.line?_code hl
  have hnumber : n.range.start.line + 1 + k = b.before.count '\n' + 2 + k := by
    rw [h.start_line, Nat.add_assoc]
  rw [hnumber] at hline hend
  obtain rfl : (Line.mk start l.raw).text = line := by
    simpa [LineIndex.lineText?, hline?] using hline
  have hsame : Text.Terminated l.code ∨ ('\n' ∉ l.code ∧ '\r' ∉ l.code) := by
    refine hends.imp_right ?_
    rintro ⟨hfeed, hlast⟩
    refine ⟨hfeed, ?_⟩
    have hreturn := hend.resolve_left (by omega)
    rw [Line.text_of_not_mem (hisLine.feed_not_mem_raw hfeed)] at hreturn
    exact fun hmem ↦ hreturn (List.mem_append_right _ hmem)
  obtain ⟨rest, hrest, hvalue⟩ := hisLine.exists_code hsame start
  refine ⟨l.lead, List.replicate l.owed ' ', rest, hrest, hvalue,
    fun c hc ↦ isMember_of_isMargin (hisLine.isMargin c hc), fun c hc ↦ ?_⟩
  rw [(List.mem_replicate.mp hc).2]
  rfl

/-- Code behind container prefix and what is left of its line agree but for quote markers and blanks
at their starts, and all of the code without its blanks is left unless it starts with a quote marker
that the indent reaches. -/
theorem trimStart_suffix_dropIndent_iff {lead blanks rest : List Char}
    (hlead : ∀ c ∈ lead, ContainerPrefix.isMember c = true)
    (hblanks : ∀ c ∈ blanks, Text.isBlank c = true) (indent : Nat) :
    (blanks ++ rest).dropWhile ContainerPrefix.isMember =
        (dropIndent indent (lead ++ rest)).2.dropWhile ContainerPrefix.isMember ∧
      (Text.trimStart (blanks ++ rest) <:+ (dropIndent indent (lead ++ rest)).2 ↔
        (Text.trimStart (blanks ++ rest)).head? ≠ some ContainerPrefix.marker ∨
          indent + (Text.trimStart (blanks ++ rest)).length ≤ (lead ++ rest).length) := by
  constructor
  · rw [dropWhile_dropIndent, List.dropWhile_append_of_pos hlead,
      List.dropWhile_append_of_pos fun c hc ↦ ContainerPrefix.isMember_of_isBlank (hblanks c hc)]
  · have htrim : Text.trimStart (blanks ++ rest) = Text.trimStart rest :=
      List.dropWhile_append_of_pos hblanks
    obtain ⟨skipped, hrest, hskipped, hhead⟩ := Text.exists_trimStart rest
    have hmembers : ∀ c ∈ lead ++ skipped, ContainerPrefix.isMember c = true := fun c hc ↦
      (List.mem_append.mp hc).elim (hlead c) fun hc ↦
        ContainerPrefix.isMember_of_isBlank (hskipped c hc)
    have hiff := suffix_dropIndent_iff hmembers hhead indent
    rw [List.append_assoc, ← hrest] at hiff
    rwa [htrim]

/-- The tagged nodes of a document show fenced code blocks of its text. The lines of a source made
of such a node stand for those of the code one by one. A content line and the line of code that it
stands for agree but for quote markers and blanks at their starts, and all of the code without its
leading blanks is left unless it starts with a quote marker that the indent of the block reaches.
The last line of a document counts only without carriage returns. -/
theorem Document.trimStart_codeLines_suffix_iff (text : List Char) :
    (∀ n ∈ (ofText text).root.preorder, ∀ tag, n.languageTag? = some tag → n.ShowsFence text) ∧
      ∀ n : Node, n.ShowsFence text →
        let x := LineIndex.ofText text
        let indent := containerIndent x n
        ∃ body content, CodeLines.ofNode x n indent = .ok body ∧
          fragmentLines x body.first body.count = .ok content ∧
          (∀ ds id b, SourceBlock.ofNode x n ds id = .ok b →
            b.source.text = Text.joinLines (sourceLines ds indent content)) ∧
          ∀ (k m : Nat) line code, content[k]? = some (m, line) → n.codeLines[k]? = some code →
            m < x.lineCount ∨ '\r' ∉ line →
              code.dropWhile ContainerPrefix.isMember =
                  (dropIndent indent line).2.dropWhile ContainerPrefix.isMember ∧
                (Text.trimStart code <:+ (dropIndent indent line).2 ↔
                  (Text.trimStart code).head? ≠ some ContainerPrefix.marker ∨
                    indent + (Text.trimStart code).length ≤ line.length) := by
  refine ⟨fun n hn tag htag ↦ showsFence_of_languageTag? hn htag, ?_⟩
  rintro n ⟨b, hb⟩ x indent
  have hin := hb.liesIn
  obtain ⟨body, hbody⟩ := hin.exists_codeLines indent
  obtain ⟨content, hcontent⟩ := hin.exists_content hbody
  refine ⟨body, content, hbody, hcontent, ?_, ?_⟩
  · intro ds id s hs
    obtain ⟨tag', body', content', hmade⟩ := SourceBlock.ofNode_eq_ok_iff.mp hs
    obtain rfl : body = body' := Except.ok.inj (hbody.symm.trans hmade.body_eq)
    obtain rfl : content = content' := Except.ok.inj (hcontent.symm.trans hmade.content_eq)
    rw [hmade.source_eq]
  · intro k m line code hline hcode hend
    obtain ⟨hm, htext⟩ := (fragmentLines_eq_ok_iff.mp hcontent).2 k _ hline
    have hfirst : body.first = n.range.start.line + 1 := by
      rcases CodeLines.ofNode_eq_ok hbody with ⟨-, rfl⟩ | ⟨-, rfl⟩
      all_goals rfl
    rw [hfirst] at hm htext
    obtain ⟨lead, blanks, rest, rfl, rfl, hlead, hblanks⟩ := hb.exists_code hcode htext (hm ▸ hend)
    exact trimStart_suffix_dropIndent_iff hlead hblanks indent

/-- A quote marker of the code stays where the indent of the block does not reach it. -/
theorem Document.trimStart_suffix_quoted :
    let text := "> ```js\n>   > a\n> ```\n".toList
    ∃ n ∈ (ofText text).root.preorder, n.codeLines = ["  > a".toList] ∧
      "> a".toList <:+ (dropIndent (containerIndent (.ofText text) n) ">   > a".toList).2 := by
  intro text
  let n := (ofText text).root.preorder.get ⟨2, by decide +kernel⟩
  have htag : n.languageTag? = some "js".toList := by decide +kernel
  obtain ⟨hshows, hlines⟩ := trimStart_codeLines_suffix_iff text
  obtain ⟨body, content, hbody, hcontent, -, hcode⟩ :=
    hlines n (hshows n (List.get_mem _ _) _ htag)
  have hread : CodeLines.ofNode (.ofText text) n (containerIndent (.ofText text) n) =
      .ok ⟨2, 1, some 3⟩ := by decide +kernel
  obtain rfl : ⟨2, 1, some 3⟩ = body := Except.ok.inj (hread.symm.trans hbody)
  have hone : fragmentLines (.ofText text) 2 1 = .ok [(2, ">   > a".toList)] := by decide +kernel
  obtain rfl : [(2, ">   > a".toList)] = content := Except.ok.inj (hone.symm.trans hcontent)
  have hsuffix := (hcode 0 2 ">   > a".toList "  > a".toList rfl (by decide +kernel)
    (.inl (by decide +kernel))).2.mpr (.inr (by decide +kernel))
  exact ⟨n, List.get_mem _ _, by decide +kernel, hsuffix⟩

/-- In an indented block without any quote around it, a quote marker of the code is taken off. -/
theorem Document.trimStart_not_suffix :
    let text := "  ```js\n> a\n  ```\n".toList
    ∃ n ∈ (ofText text).root.preorder, n.languageTag? = some "js".toList ∧
      n.codeLines = ["> a".toList] ∧
      ¬Text.trimStart "> a".toList <:+
        (dropIndent (containerIndent (.ofText text) n) "> a".toList).2 := by
  decide +kernel

end FencedCode
