import FencedCode.Markdown.Leaf
import FencedCode.Proofs.Markdown.Cursors

/-!
# Where readers leave off

Every reader of a block leaves off at a place in the text, so that what comes after it is read from
there.
-/

namespace FencedCode.Markdown

variable {text : List Char} {c : Cursor}

/-- The cursor behind a blank line is in the text. -/
theorem Cursor.IsIn.afterBlankLine (h : c.IsIn text) : c.afterBlankLine.IsIn text := h.skip _

private theorem isIn_lineStart (path : List Container) (h : c.IsIn text) :
    (lineStart path c).2.cursor.IsIn text := by
  obtain ⟨lead, hlead⟩ := exists_passes_lineStart path c
  exact hlead.isIn h

private theorem Margin.isIn_take {m : Margin} (h : m.cursor.IsIn text) (n : Nat) :
    (m.take n).2.cursor.IsIn text := by
  obtain ⟨lead, hlead⟩ := m.exists_passes_take n
  exact hlead.isIn h

private theorem Margin.isIn_takeAll {m : Margin} (h : m.cursor.IsIn text) :
    m.takeAll.cursor.IsIn text :=
  m.passes_takeAll.isIn h

/-- Each step of reading a line moves on from the cursor, or ends there or behind it. -/
private theorem isIn_lexFrom (mode : LineMode) (origin fuel : Nat) (l : Lexing) (h : c.IsIn text) :
    (lexFrom mode origin fuel l c).next.IsIn text := by
  induction fuel generalizing l c with
  | zero => exact h
  | succ fuel ih =>
    unfold lexFrom
    simp only
    repeat' split
    all_goals
      first
      | exact h
      | exact h.skip _
      | exact ih _ h.next
      | exact ih _ (h.skip _)
      | exact ih _ (h.next.skip _)

private theorem isIn_lexLine (mode : LineMode) (h : c.IsIn text) :
    (lexLine mode c).next.IsIn text :=
  isIn_lexFrom mode _ _ _ h

private theorem isIn_fencedLines (path : List Container) (indent : Nat) (mark : Char)
    (length fuel : Nat)
    (pieces : List Piece) (h : c.IsIn text) :
    (fencedLines path indent mark length fuel pieces c).2.2.IsIn text := by
  induction fuel generalizing pieces c with
  | zero => exact h
  | succ fuel ih =>
    have hline := Margin.isIn_take (isIn_lineStart path h) indent
    unfold fencedLines
    simp only
    split
    · exact h
    · split
      · exact ((Margin.isIn_take hline _).skip _).afterBlankLine
      · exact ih _ (hline.skip _)

/-- What follows a fenced block is in the text. -/
theorem isIn_readFenced (path : List Container) (indent : Nat) (mark : Char) (length : Nat)
    (h : c.IsIn text) : (readFenced path indent mark length c).2.IsIn text := by
  unfold readFenced
  exact isIn_fencedLines path indent mark length _ _ (h.skip _)

private theorem IndentedLines.isIn_add (l : IndentedLines) (owed : Nat) (h : c.IsIn text) :
    (l.add owed c).next.IsIn text := by
  unfold add
  simp only
  split
  · exact h.skip _
  · exact h.skip _

private theorem isIn_indentedLines (path : List Container) (fuel : Nat) {l : IndentedLines}
    (h : l.next.IsIn text) : (indentedLines path fuel l).next.IsIn text := by
  induction fuel generalizing l with
  | zero => exact h
  | succ fuel ih =>
    unfold indentedLines
    simp only
    split
    · exact ih (l.isIn_add _ (Margin.isIn_take (isIn_lineStart path h) 4))
    · exact h

/-- What follows an indented block is in the text. -/
theorem isIn_readIndented (path : List Container) (owed : Nat) (h : c.IsIn text) :
    (readIndented path owed c).2.1.IsIn text :=
  isIn_indentedLines path _ (IndentedLines.isIn_add _ _ h)

private theorem isIn_htmlLines (path : List Container) (ending : HtmlEnd) (fuel : Nat)
    (pieces : List Piece) (owed : Nat) (h : c.IsIn text) :
    (htmlLines path ending fuel pieces owed c).2.2.IsIn text := by
  induction fuel generalizing pieces owed c with
  | zero => exact h
  | succ fuel ih =>
    have hnext := h.skip (rawLine c.rest).length
    have hline := isIn_lineStart path hnext
    unfold htmlLines
    simp only
    repeat' split
    all_goals
      first
      | exact hnext
      | exact ih _ _ hline

/-- What follows a block of HTML is in the text. -/
theorem isIn_readHtml (path : List Container) (ending : HtmlEnd) (owed : Nat) (h : c.IsIn text) :
    (readHtml path ending owed c).2.IsIn text := by
  unfold readHtml
  exact isIn_htmlLines path ending _ _ _ h

/-- What follows a heading is in the text. -/
theorem isIn_readHeading (level : Nat) (h : c.IsIn text) : (readHeading level c).2.IsIn text := by
  have hcontent := (h.skip level).skip (spacingLength (c.skip level).rest)
  unfold readHeading
  simp only
  split
  · exact hcontent.skip _
  · exact isIn_lexLine _ hcontent

private theorem isIn_rowCells (fuel : Nat) (cells : List TableCell) (h : c.IsIn text) :
    (rowCells fuel cells c).2.IsIn text := by
  induction fuel generalizing cells c with
  | zero => exact h
  | succ fuel ih =>
    have hstart : (if c.rest.head? = some '|' then c.next else c).IsIn text := by
      split
      · exact h.next
      · exact h
    unfold rowCells
    simp only
    split
    · exact (hstart.skip _).skip _
    · exact ih _ (isIn_lexLine _ (hstart.skip _))

private theorem isIn_readRow (columns : Nat) (h : c.IsIn text) :
    (readRow columns c).2.1.IsIn text := by
  unfold readRow
  exact isIn_rowCells _ _ h

private theorem isIn_bodyRows (path : List Container) (columns fuel : Nat) (h : c.IsIn text) :
    (bodyRows path columns fuel c).2.IsIn text := by
  induction fuel generalizing c with
  | zero => exact h
  | succ fuel ih =>
    unfold bodyRows
    simp only
    split
    · exact h
    · split
      · exact h
      · exact ih (isIn_readRow columns (Margin.isIn_takeAll (isIn_lineStart path h)))

private theorem isIn_readTable (path : List Container) (columns : Nat) (body : List Char)
    (h : c.IsIn text) : (readTable path columns body c).2.IsIn text :=
  isIn_bodyRows path columns _ (h.upTo body)

private theorem isIn_paragraphLines (path : List Container) (start fuel : Nat) (tokens : List Token)
    (h : c.IsIn text) : (paragraphLines path start fuel tokens c).2.IsIn text := by
  induction fuel generalizing tokens c with
  | zero => exact h
  | succ fuel ih =>
    have hnext := isIn_lexLine .running h
    have hline := Margin.isIn_take (isIn_lineStart path hnext) 4
    unfold paragraphLines
    simp only
    split
    · exact hline.skip _
    · split
      · exact hnext
      · exact ih _ (Margin.isIn_takeAll hline)

/-- What follows a paragraph is in the text. -/
theorem isIn_readParagraph (path : List Container) (h : c.IsIn text) :
    (readParagraph path c).2.IsIn text := by
  unfold readParagraph
  split
  · exact isIn_readTable path _ _ h
  · exact isIn_paragraphLines path _ _ _ h

end FencedCode.Markdown
