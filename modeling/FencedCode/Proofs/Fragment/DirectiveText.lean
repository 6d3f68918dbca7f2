import FencedCode.Proofs.Fragment.Offsets
import FencedCode.Proofs.Fragment.Success

/-!
# Where the text of a directive comes from

In a source the text of a directive stands behind the opener of a block comment, over as many lines
as it has. A map leads from its places to the comment of the document with the distance in lines and
columns that its first character has, as far as the range reaches that the directive is given: down
to the last line of the comment or of the text, and there to the column that is as far from the
start as the comment's end is. So all of the text leads into its comment exactly when it fits that.
-/

namespace FencedCode

namespace Directive

/-- How many characters stand before line `j` of the text of a directive in the comment for it. -/
def leadLength (j : Nat) : Nat := if j = 0 then commentOpening.length else 0

/-- The place of character `i` of line `j` of a directive's text, or of the end of that line, in a
source where the comment for it starts on line `first`. -/
def textPlace (first j i : Nat) : Position := ⟨first + j, leadLength j + i + 1, none⟩

/-- The place of the document that is as far from the start of the comment as the one of character
`i` of line `j` is from the start of the text, but not to the left of the first column. -/
def commentPlace (d : Directive) (j i : Nat) : Position :=
  ⟨d.location.start.line + j,
    max 1 (d.location.start.column + (leadLength j + i) - commentOpening.length), none⟩

/-- The column at which the range of a directive ends in a source. -/
def stopColumn (d : Directive) : Nat :=
  max 1 (d.location.stop.column + (commentOpening.length + 1) - d.location.start.column)

/-- Whether the range of a directive in a source reaches character `i` of line `j` of its text. -/
def Reaches (d : Directive) (j i : Nat) : Prop :=
  let last := min d.location.height (d.text.count '\n')
  j < last ∨ (j = last ∧ leadLength j + i + 1 ≤ d.stopColumn)

/-- The column after the last line of a directive's text in the comment for it. -/
def textStopColumn (d : Directive) : Nat :=
  leadLength (d.text.count '\n') + ((Text.splitFeeds d.text).getLastD []).length + 1

/-- Whether the text of a directive fits the comment that it stands in: it has no more lines, its
last line does not go past the column where its range ends, nor, when that leads to the last line of
the comment, past the comment's end. -/
structure FitsComment (d : Directive) : Prop where
  height_le : d.text.count '\n' ≤ d.location.height
  stop_le : d.textStopColumn ≤ d.stopColumn
  level : d.text.count '\n' = d.location.height →
    d.location.start.column + d.textStopColumn ≤
      d.location.stop.column + (commentOpening.length + 1)

/-- Whether a comment stands as one of a document does: its columns count from one and leave room
for sums in a word, its last line is one that a word holds, and it does not end above its first
one. -/
structure WellPlaced (d : Directive) : Prop where
  one_le_start : 1 ≤ d.location.start.column
  start_lt : d.location.start.column < sumLimit
  one_le_stop : 1 ≤ d.location.stop.column
  stop_lt : d.location.stop.column < sumLimit
  line_le : d.location.start.line ≤ d.location.stop.line
  line_lt : d.location.stop.line < UInt64.size

/-- The comment for a directive has the lines of its text behind the opener and before the
closer. -/
theorem exists_commentLine (d : Directive) {j : Nat} {l : List Char}
    (hl : (Text.splitFeeds d.text)[j]? = some l) : ∃ lead tail,
      lead.length = leadLength j ∧ d.commentLines[j]? = some (lead ++ l ++ tail) := by
  have hopening : '\n' ∉ commentOpening := by decide
  have hclosing : '\n' ∉ commentClosing := by decide
  rw [commentLines, List.append_assoc, Text.getElem?_splitFeeds_lead hopening,
    Text.getElem?_splitFeeds_tail hclosing, hl]
  refine ⟨if j = 0 then commentOpening else [],
    if j = d.text.count '\n' then commentClosing else [], ?_, ?_⟩
  · rw [leadLength, apply_ite List.length]
    rfl
  · simp only [Option.map_some, Option.some.injEq]
    split <;> split <;> simp

/-- Where the range that a directive is given in a source holds the places of its text. -/
theorem holds_textPlace_iff {d : Directive} (hd : d.WellPlaced) (first j i : Nat) :
    (d.stretch first).Holds (textPlace first j i) ↔ d.Reaches j i := by
  have hopening : commentOpening.length + 1 = 3 := rfl
  have hstop := shiftColumn_eq_of_lt (show 3 < sumLimit by decide) hd.stop_lt hd.start_lt
  have hlead : j = 0 → leadLength j = 2 := fun hj ↦ by rw [hj]; rfl
  simp only [Stretch.Holds, stretch, generatedRange, textPlace, Reaches, stopColumn,
    length_commentLines, Position.le_def, hopening]
  omega

/-- What its stretch makes of a place of a directive's text. -/
theorem place_textPlace {d : Directive} (hd : d.WellPlaced) {first j i : Nat}
    (hreaches : d.Reaches j i) (hi : leadLength j + i + 1 < sumLimit) :
    (d.stretch first).place (textPlace first j i) = d.commentPlace j i := by
  have hopening : commentOpening.length = 2 := rfl
  have hplace := shiftColumn_eq_of_lt hd.start_lt hi (show 2 + 1 < sumLimit by decide)
  have hword : word (d.location.start.line + j) = d.location.start.line + j := by
    have hle := hd.line_le
    have hlt := hd.line_lt
    simp only [Reaches, Range.height] at hreaches
    exact word_eq (by omega)
  simp only [Stretch.place, stretch, generatedRange, textPlace, commentPlace, hopening,
    Nat.add_sub_cancel_left, hword, Position.mk.injEq, true_and, and_true]
  omega

end Directive

namespace SourceBlock

/-- Whether every place of a directive's text, the ends of its lines among them, comes from inside
the comment of the document, when the comment for it starts on line `first` of the source. -/
def MapsBack (b : SourceBlock) (d : Directive) (first : Nat) : Prop :=
  ∀ j l i, (Text.splitFeeds d.text)[j]? = some l → i ≤ l.length →
    ∃ p, b.map.hostPosition? (Directive.textPlace first j i) = some p ∧
      d.location.start ≤ p ∧ p ≤ d.location.stop

namespace MadeOf

variable {x : LineIndex} {n : Node} {before after : List Directive} {d : Directive}
  {id : FragmentId} {b : SourceBlock} {tag : List Char} {body : CodeLines}
  {content : List (Nat × List Char)}

/-- On the lines of a directive's comment no other stretch than its own leads to the document. -/
theorem hostPosition?_directive
    (h : MadeOf x n (before ++ d :: after) id b tag body content) {q p : Position}
    (hstart : directiveHeight before + 1 ≤ q.line)
    (hstop : q.line < directiveHeight before + 1 + d.commentLines.length) :
    b.map.hostPosition? q = some p ↔ (d.stretch (directiveHeight before + 1)).Holds q ∧
      p = (d.stretch (directiveHeight before + 1)).place q := by
  have hheight : directiveHeight (before ++ d :: after) =
      directiveHeight before + (d.commentLines.length + directiveHeight after) := by
    rw [directiveHeight_append, directiveHeight_cons]
  rw [FragmentMap.hostPosition?, h.map_eq]
  refine h.ascending.hostPosition?_eq_some_iff.trans ?_
  have hsplit : directiveStretches 1 (before ++ d :: after) = directiveStretches 1 before ++
      d.stretch (directiveHeight before + 1) ::
        directiveStretches (directiveHeight before + 1 + d.commentLines.length) after := by
    rw [directiveStretches_append, directiveStretches, Nat.add_comm 1]
  constructor
  · rintro ⟨s, hs, hq, rfl⟩
    have hline := hq.line_le
    rcases mem_sourceStretches hs with hs | ⟨k, m, line, -, rfl⟩ | ⟨-, rfl⟩
    · rw [hsplit, List.mem_append, List.mem_cons] at hs
      rcases hs with hs | rfl | hs
      · have hbefore := stop_line_of_mem_directiveStretches hs
        omega
      · exact ⟨hq, rfl⟩
      · have hafter := stop_line_of_mem_directiveStretches hs
        omega
    · simp only [contentStretch] at hline
      omega
    · simp only [closingStretch, Range.point] at hline
      omega
  · rintro ⟨hq, rfl⟩
    exact ⟨_, by simp [sourceStretches, hsplit], hq, rfl⟩

/-- The lines of a source that a directive's comment becomes. -/
theorem line?_directive (h : MadeOf x n (before ++ d :: after) id b tag body content) {j : Nat}
    {l : List Char} (hl : d.commentLines[j]? = some l) :
    ∃ g, b.map.generated.line? (directiveHeight before + 1 + j) = some g ∧
      g.raw = l ++ ['\n'] := by
  have hget : (sourceLines (before ++ d :: after) (containerIndent x n)
      content)[directiveHeight before + j]? = some l := by
    have hj := (List.getElem?_eq_some_iff.mp hl).1
    rw [sourceLines, List.flatMap_append, List.flatMap_cons, List.append_assoc, directiveHeight,
      List.getElem?_append_right (Nat.le_add_right _ _), Nat.add_sub_cancel_left,
      List.append_assoc, List.getElem?_append_left hj]
    exact hl
  rw [Nat.add_right_comm]
  exact h.line?_of_sourceLines hget

/-- The places of a directive's text hold its characters. -/
theorem charAt?_textPlace (h : MadeOf x n (before ++ d :: after) id b tag body content)
    {j i : Nat} {l : List Char} (hl : (Text.splitFeeds d.text)[j]? = some l) (hi : i < l.length) :
    b.map.generated.charAt? (Directive.textPlace (directiveHeight before + 1) j i) = l[i]? := by
  obtain ⟨lead, tail, hlead, hline⟩ := d.exists_commentLine hl
  obtain ⟨g, hg, hraw⟩ := h.line?_directive hline
  rw [Directive.textPlace, LineIndex.charAt?_succ hg, hraw, ← hlead, List.append_assoc,
    List.append_assoc, List.getElem?_append_right (Nat.le_add_right _ _), Nat.add_sub_cancel_left,
    List.getElem?_append_left hi]

/-- A place of a directive's text comes from the document exactly when the range of the directive
reaches it. -/
theorem hostPosition?_textPlace (h : MadeOf x n (before ++ d :: after) id b tag body content)
    (hd : d.WellPlaced) (hsource : Text.byteLength b.source.text < sumLimit) {j i : Nat}
    {l : List Char} (hl : (Text.splitFeeds d.text)[j]? = some l) (hi : i ≤ l.length)
    {p : Position} :
    b.map.hostPosition? (Directive.textPlace (directiveHeight before + 1) j i) = some p ↔
      d.Reaches j i ∧ p = d.commentPlace j i := by
  obtain ⟨lead, tail, hlead, hline⟩ := d.exists_commentLine hl
  obtain ⟨g, hg, hraw⟩ := h.line?_directive hline
  have hlength := LineIndex.length_raw_le hg
  have hcolumn : Directive.leadLength j + i + 1 < sumLimit := by
    rw [LineIndex.byteLength, h.generated_text, hraw] at hlength
    simp only [List.length_append, List.length_singleton] at hlength
    omega
  have hj := (List.getElem?_eq_some_iff.mp hline).1
  rw [h.hostPosition?_directive (by simp [Directive.textPlace]) (by simpa [Directive.textPlace]),
    Directive.holds_textPlace_iff hd]
  apply and_congr_right
  intro hreaches
  rw [Directive.place_textPlace hd hreaches hcolumn]

/-- The text of a directive leads into its comment exactly when it fits that. -/
theorem mapsBack_iff_fitsComment (h : MadeOf x n (before ++ d :: after) id b tag body content)
    (hd : d.WellPlaced) (hsource : Text.byteLength b.source.text < sumLimit) :
    b.MapsBack d (directiveHeight before + 1) ↔ d.FitsComment := by
  have hopening : commentOpening.length = 2 := rfl
  have hcount := Text.length_splitFeeds d.text
  obtain ⟨last, hlast⟩ : ∃ last, (Text.splitFeeds d.text)[d.text.count '\n']? = some last :=
    ⟨_, List.getElem?_eq_getElem (by omega)⟩
  have hstop : d.textStopColumn = Directive.leadLength (d.text.count '\n') + last.length + 1 := by
    rw [Directive.textStopColumn, List.getLastD_eq_getLast?, List.getLast?_eq_getElem?, hcount,
      Nat.add_sub_cancel, hlast, Option.getD_some]
  have hheight : d.location.stop.line = d.location.start.line + d.location.height := by
    have hline := hd.line_le
    rw [Range.height]
    omega
  have hone := hd.one_le_stop
  constructor
  · intro hmaps
    obtain ⟨p, hp, -, hle⟩ := hmaps _ last last.length hlast (Nat.le_refl _)
    obtain ⟨hreaches, rfl⟩ := (h.hostPosition?_textPlace hd hsource hlast (Nat.le_refl _)).mp hp
    rw [Directive.Reaches] at hreaches
    simp only [Directive.commentPlace, Position.le_def, hopening] at hle
    constructor
    · omega
    · omega
    · intro hlevel
      omega
  · rintro ⟨hfeeds, hle, hlevel⟩ j l i hl hi
    have hj := (List.getElem?_eq_some_iff.mp hl).1
    have hlength : j = d.text.count '\n' → l.length = last.length := by
      rintro rfl
      rw [Option.some.inj (hl.symm.trans hlast)]
    have hreaches : d.Reaches j i := by
      simp only [Directive.Reaches, Nat.min_eq_right hfeeds]
      rcases Nat.lt_or_ge j (d.text.count '\n') with hlt | hge
      · exact .inl hlt
      · obtain rfl : j = d.text.count '\n' := by omega
        exact .inr ⟨rfl, by omega⟩
    refine ⟨_, (h.hostPosition?_textPlace hd hsource hl hi).mpr ⟨hreaches, rfl⟩, ?_, ?_⟩
    · have hlead : j = 0 → Directive.leadLength j = 2 := fun hj ↦ by rw [hj]; rfl
      simp only [Directive.commentPlace, Position.le_def, hopening]
      omega
    · simp only [Directive.commentPlace, Position.le_def, hopening]
      rcases Nat.lt_or_ge j d.location.height with hlt | hge
      · omega
      · obtain rfl : j = d.text.count '\n' := by omega
        have hlevel := hlevel (by omega)
        omega

end MadeOf

end SourceBlock

end FencedCode
