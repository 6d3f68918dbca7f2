import FencedCode.Markdown.BlockTree
import FencedCode.Proofs.Markdown.Fenced

/-!
# Blocks of a text

A text is read into blocks line by line. Wherever a fenced code block stands among them, in however
many containers, it is one that the text has at that place: opening, continuing and ending
containers only moves finished blocks around, and every reader starts at a place of the text.
-/

namespace FencedCode.Markdown

/-- A block of a text: all fenced code blocks in it are blocks of the text, wherever they stand. -/
inductive Block.IsOf (text : List Char) : Block → Prop
  | container (kind : Container) (span : Span) {children : List Block}
      (h : ∀ b ∈ children, IsOf text b) : IsOf text (.container kind span children)
  | paragraph (span : Span) (tokens : List Token) : IsOf text (.paragraph span tokens)
  | heading (span : Span) (tokens : List Token) : IsOf text (.heading span tokens)
  | fenced (b : FencedBlock text) (info : List Char) {pieces : List Piece}
      (h : pieces.flatMap (·.value) = b.value) : IsOf text (.code (some info) b.span pieces)
  | indented (span : Span) (pieces : List Piece) : IsOf text (.code none span pieces)
  | html (span : Span) (pieces : List Piece) : IsOf text (.html span pieces)
  | rule (span : Span) : IsOf text (.rule span)
  | table (span : Span) (rows : List TableRow) : IsOf text (.table span rows)

namespace OpenContainers

variable {text : List Char} {o : OpenContainers}

/-- The finished blocks are blocks of a text. -/
structure Holds (text : List Char) (o : OpenContainers) : Prop where
  blocks : ∀ b ∈ o.blocks, b.IsOf text
  frames : ∀ f ∈ o.frames, ∀ b ∈ f.blocks, b.IsOf text

private theorem holds_empty (text : List Char) : Holds text {} := ⟨by simp, by simp⟩

/-- What is remembered about blank lines, empty items and labels plays no part. -/
theorem Holds.congr {o' : OpenContainers} (h : o.Holds text) (hframes : o'.frames = o.frames)
    (hblocks : o'.blocks = o.blocks) : o'.Holds text :=
  ⟨hblocks ▸ h.blocks, hframes ▸ h.frames⟩

/-- A block of the text may be added. -/
theorem Holds.add (h : o.Holds text) {b : Block} (hb : b.IsOf text) : (o.add b).Holds text := by
  obtain ⟨frames, blocks, afterBlank, emptyItem, labels⟩ := o
  cases frames with
  | nil => exact ⟨List.forall_mem_cons.mpr ⟨hb, h.blocks⟩, h.frames⟩
  | cons f fs =>
    obtain ⟨hinner, houter⟩ := List.forall_mem_cons.mp h.frames
    exact ⟨h.blocks, List.forall_mem_cons.mpr ⟨List.forall_mem_cons.mpr ⟨hb, hinner⟩, houter⟩⟩

/-- A container may be opened. -/
theorem Holds.push (h : o.Holds text) (kind : Container) (start : Nat) :
    (o.push kind start).Holds text :=
  ⟨h.blocks, List.forall_mem_cons.mpr ⟨by simp, h.frames⟩⟩

/-- The innermost container may be closed. -/
theorem Holds.close (h : o.Holds text) (stop : Nat) : (o.close stop).Holds text := by
  obtain ⟨frames, blocks, afterBlank, emptyItem, labels⟩ := o
  cases frames with
  | nil => exact h
  | cons f fs =>
    obtain ⟨hinner, houter⟩ := List.forall_mem_cons.mp h.frames
    have hrest : Holds text ⟨fs, blocks, afterBlank, emptyItem, labels⟩ := ⟨h.blocks, houter⟩
    have hchildren : ∀ b ∈ f.blocks.reverse, b.IsOf text := fun b hb ↦
      hinner b (List.mem_reverse.mp hb)
    exact (hrest.add (.container f.kind ⟨f.start, stop⟩ hchildren)).congr rfl rfl

/-- And so may several containers. -/
theorem Holds.closeMany (h : o.Holds text) (stop n : Nat) : (closeMany stop n o).Holds text := by
  induction n generalizing o with
  | zero => exact h
  | succ n ih => exact ih (h.close stop)

/-- What kind a container is does not matter. -/
theorem Holds.changeKind (h : o.Holds text) (i : Nat) (f : Container → Container) :
    (o.changeKind i f).Holds text := by
  refine ⟨h.blocks, fun frame hframe ↦ ?_⟩
  obtain ⟨j, hj⟩ := List.getElem?_of_mem hframe
  rw [OpenContainers.changeKind, List.getElem?_modify] at hj
  obtain ⟨frame', hframe', rfl⟩ := Option.map_eq_some_iff.mp hj
  have hmem := h.frames frame' (List.mem_of_getElem? hframe')
  split
  · exact hmem
  · exact hmem

/-- An empty item may be ended. -/
theorem Holds.endEmptyItem (h : o.Holds text) : o.endEmptyItem.Holds text := by
  unfold OpenContainers.endEmptyItem
  simp only
  split
  · exact h.congr rfl rfl
  · split
    · exact (h.close _).congr rfl rfl
    · exact h.congr rfl rfl

/-- A list may be ended. -/
theorem Holds.endList (h : o.Holds text) (stop : Nat) : (o.endList stop).Holds text := by
  have hclosed : (if o.endEmptyItem.innermost?.any Container.isList then o.endEmptyItem.close stop
      else o.endEmptyItem).Holds text := by
    split
    · exact h.endEmptyItem.close stop
    · exact h.endEmptyItem
  unfold OpenContainers.endList
  simp only
  generalize (if o.endEmptyItem.innermost?.any Container.isList then o.endEmptyItem.close stop
    else o.endEmptyItem) = closed at hclosed ⊢
  split
  · exact (hclosed.changeKind 1 loosen).congr rfl rfl
  · exact hclosed

/-- A list may be continued, or another begun. -/
theorem Holds.continueList (h : o.Holds text) (start : Nat) (mark : Char) :
    (o.continueList start mark).Holds text := by
  have hnew : ((o.endEmptyItem.endList start).push (.list mark true) start).Holds text :=
    (h.endEmptyItem.endList start).push _ _
  unfold OpenContainers.continueList
  simp only
  split
  · split
    · split
      · exact (h.endEmptyItem.changeKind 0 loosen).congr rfl rfl
      · exact h.endEmptyItem
    · exact hnew.congr rfl rfl
  · exact hnew.congr rfl rfl

/-- A blank line may be added. -/
theorem Holds.addBlank (h : o.Holds text) : o.addBlank.Holds text := by
  unfold OpenContainers.addBlank
  split
  · exact h
  · split
    · exact (h.changeKind 0 fun _ ↦ .item 0).congr rfl rfl
    · exact h.congr rfl rfl
  · exact h.congr rfl rfl

/-- What stays open at the end gives blocks of the text. -/
theorem Holds.finish (h : o.Holds text) (stop : Nat) : ∀ b ∈ o.finish stop, b.IsOf text := by
  intro b hb
  exact (h.closeMany stop _).blocks b (List.mem_reverse.mp hb)

end OpenContainers

/-- What is left of a line starts at a place of a text. -/
def LineRest.IsIn (text : List Char) : LineRest → Prop
  | .ended next => next.IsIn text
  | .paragraph start => start.IsIn text
  | .content margin => margin.cursor.IsIn text

namespace OpenContainers

variable {text : List Char} {o o' : OpenContainers} {c : Cursor} {m : Margin}

/-- Opening an item leaves a rest of the text. -/
theorem Holds.openItem? {indent : Nat} {rest : LineRest} (h : o.Holds text)
    (hm : m.cursor.IsIn text) (hopen : o.openItem? indent m = some (o', rest)) :
    o'.Holds text ∧ rest.IsIn text := by
  obtain ⟨⟨mark, content, after⟩, hmark, hopen⟩ := Option.bind_eq_some_iff.mp hopen
  have hafter := m.isIn_takeListMark? hmark hm
  have hitem : ((o.continueList (m.cursor.offset - indent) mark).push (.item content)
      (m.cursor.offset - indent)).Holds text := (h.continueList _ _).push _ _
  simp only [Option.pure_def] at hopen
  split at hopen
  · cases hopen
    exact ⟨hitem.congr rfl rfl, hafter.afterBlankLine⟩
  · split at hopen
    · cases hopen
      exact ⟨hitem, hafter⟩
    · next task htask =>
      have hrest := Margin.isIn_takeTaskMark? htask hafter
      split at hopen
      · cases hopen
        exact ⟨hitem.congr rfl rfl, hrest.afterBlankLine⟩
      · cases hopen
        exact ⟨hitem, hrest.skip _⟩

/-- Opening new containers leaves a rest of the text. -/
theorem Holds.openNew (h : o.Holds text) (hm : m.cursor.IsIn text) (start fuel : Nat) :
    (openNew start fuel o m).1.Holds text ∧ (openNew start fuel o m).2.IsIn text := by
  induction fuel generalizing o m with
  | zero => exact ⟨h, hm⟩
  | succ fuel ih =>
    obtain ⟨lead, hlead⟩ := m.exists_passes_takeUpTo 4
    have hinner := hlead.isIn hm
    unfold OpenContainers.openNew
    simp only
    split
    · exact ⟨h, hm⟩
    · split
      · next hopen =>
        obtain ⟨h', hafter⟩ := h.openItem? hinner hopen
        exact ih h' hafter
      · next hopen => exact h.openItem? hinner hopen
      · split
        · next after hquote =>
          obtain ⟨lead', hlead'⟩ := Margin.exists_passes_takeQuoteMark? hquote
          exact ih ((h.endList start).push _ _) (hlead'.isIn hinner)
        · exact ⟨h, hm⟩

/-- A paragraph turns out to be a block without fenced code, whatever it is read as. -/
theorem isOf_readParagraph (text : List Char) (path : List Container) (c : Cursor) :
    (readParagraph path c).1.IsOf text := by
  have hlines (fuel : Nat) (tokens : List Token) (start : Nat) (c : Cursor) :
      (paragraphLines path start fuel tokens c).1.IsOf text := by
    induction fuel generalizing tokens c with
    | zero => exact .paragraph _ _
    | succ fuel ih =>
      unfold paragraphLines
      simp only
      split
      · exact .heading _ _
      · split
        · exact .paragraph _ _
        · exact ih _ _
  unfold readParagraph
  split
  · exact .table _ _
  · exact hlines _ _ _ _

/-- Reading text adds blocks of the text and leaves a rest of it. -/
theorem Holds.readText (h : o.Holds text) (hc : c.IsIn text) :
    (o.readText c).1.Holds text ∧ (o.readText c).2.IsIn text :=
  ⟨(h.endList c.offset).add (isOf_readParagraph text _ c), isIn_readParagraph _ hc⟩

private theorem isOf_readHeading (text : List Char) (level : Nat) (c : Cursor) :
    (readHeading level c).1.IsOf text := by
  unfold readHeading
  simp only
  split
  · exact .heading _ _
  · exact .heading _ _

/-- So does reading a block. -/
theorem Holds.readBlock {indent : Nat} (h : o.Holds text) (hc : c.IsIn text) (hindent : indent ≤ 3)
    (start owed : Nat) :
    (o.readBlock start owed indent c).1.Holds text ∧
      (o.readBlock start owed indent c).2.IsIn text := by
  have hended := h.endList start
  unfold OpenContainers.readBlock
  simp only
  split
  · exact ⟨hended.add (.html _ _), isIn_readHtml _ _ _ hc⟩
  · split
    · exact ⟨hended.add (.rule _), hc.skip _⟩
    · split
      · exact ⟨hended.add (isOf_readHeading _ _ _), isIn_readHeading _ hc⟩
      · split
        · exact ⟨hended.congr rfl rfl, (hc.upTo _).afterBlankLine⟩
        · split
          · next mark n hfence =>
            have hnext := isIn_readFenced (o.endList start).path indent mark n hc
            obtain ⟨b, info, pieces, hblock, hvalue⟩ :=
              exists_fencedBlock (o.endList start).path hc hfence hindent
            rw [hblock]
            exact ⟨hended.add (.fenced b info hvalue), hnext⟩
          · exact h.readText hc

/-- So does reading what stands behind the margin. -/
theorem Holds.readContent (h : o.Holds text) (hm : m.cursor.IsIn text) (start : Nat) :
    (o.readContent start m).1.Holds text ∧ (o.readContent start m).2.IsIn text := by
  obtain ⟨lead, hlead⟩ := m.exists_passes_takeUpTo 4
  have hinner := hlead.isIn hm
  unfold OpenContainers.readContent
  split
  · exact ⟨h.addBlank, hm.afterBlankLine⟩
  · simp only
    split
    · exact ⟨((h.endList start).add (.indented _ _)).congr rfl rfl, isIn_readIndented _ _ hinner⟩
    · next hindent =>
      refine h.readBlock hinner ?_ start m.owed
      have hle : (m.takeUpTo 4).1 ≤ 4 := Nat.sub_le _ _
      omega

/-- So does reading a line. -/
theorem Holds.readLine (h : o.Holds text) (hc : c.IsIn text) :
    (o.readLine c).1.Holds text ∧ (o.readLine c).2.IsIn text := by
  obtain ⟨lead, hlead⟩ := (Margin.ofCursor c).exists_passes_continueAll o.path
  have hopened := (h.closeMany c.offset ((Margin.ofCursor c).continueAll o.path).1.length).openNew
    (hlead.isIn hc) c.offset (c.rest.length + 1)
  unfold OpenContainers.readLine
  simp only
  generalize OpenContainers.openNew c.offset _ _ _ = opened at hopened ⊢
  obtain ⟨o', rest⟩ := opened
  obtain ⟨h', hrest⟩ := hopened
  cases rest with
  | ended next => exact ⟨h', hrest⟩
  | paragraph start => exact h'.readText hrest
  | content margin => exact h'.readContent hrest c.offset

/-- Reading lines adds blocks of the text to blocks of the text. -/
theorem Holds.readLines (h : o.Holds text) (hc : c.IsIn text) (fuel : Nat) :
    (readLines fuel o c).1.Holds text := by
  induction fuel generalizing o c with
  | zero => exact h
  | succ fuel ih =>
    unfold OpenContainers.readLines
    split
    · exact h
    · obtain ⟨h', hc'⟩ := h.readLine hc
      exact ih h' hc'

end OpenContainers

/-- The blocks that a text is read into are blocks of the text. -/
theorem BlockTree.isOf_of_mem (text : List Char) : ∀ b ∈ (ofText text).blocks, b.IsOf text := by
  unfold ofText
  exact ((OpenContainers.holds_empty text).readLines (Cursor.isIn_start text) _).finish _

end FencedCode.Markdown
