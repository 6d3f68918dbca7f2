import FencedCode.Markdown.BlockStart
import FencedCode.Proofs.Text.Bytes

/-!
# Places that reading reaches

Reading moves a cursor on and never loses its place: the offset stays the number of bytes before
what is still to be read. In the margin of a line it moves past blanks, tabs and quote markers only.
-/

namespace FencedCode.Markdown

namespace Cursor

variable {text : List Char} {c : Cursor}

/-- Whether a cursor is a place in a text. -/
def IsIn (text : List Char) (c : Cursor) : Prop :=
  ∃ before, text = before ++ c.rest ∧ c.offset = Text.byteLength before

/-- A cursor that is set to the start of a text is in it. -/
theorem isIn_start (text : List Char) : IsIn text { rest := text } := ⟨[], rfl, rfl⟩

private theorem offset_next {x : Char} {xs : List Char} (h : c.rest = x :: xs) :
    c.next.offset = c.offset + x.utf8Size := by
  unfold next
  split
  · next hnil => simp [hnil] at h
  · next y ys hcons =>
    obtain ⟨rfl, -⟩ := List.cons.inj (hcons.symm.trans h)
    rfl

/-- Moving on by the characters of a leading part of what is left adds its bytes to the offset. -/
theorem offset_skip {before rest : List Char} (h : c.rest = before ++ rest) :
    (c.skip before.length).offset = c.offset + Text.byteLength before := by
  induction before generalizing c with
  | nil => rfl
  | cons x before ih =>
    have hnext : c.next.rest = before ++ rest := by rw [rest_next, h]; rfl
    rw [List.length_cons, skip, ih hnext, offset_next h, Text.byteLength_cons, Nat.add_assoc]

private theorem rest_skip_length {before rest : List Char} (h : c.rest = before ++ rest) :
    (c.skip before.length).rest = rest := by
  rw [rest_skip, h, List.drop_left]

/-- Skipping twice skips the sum. -/
theorem skip_skip (m n : Nat) (c : Cursor) : (c.skip m).skip n = c.skip (m + n) := by
  induction m generalizing c with
  | zero => rw [skip, Nat.zero_add]
  | succ m ih => rw [Nat.add_right_comm, skip, skip, ih]

/-- The next cursor stays in the text. -/
theorem IsIn.next (h : c.IsIn text) : c.next.IsIn text := by
  obtain ⟨before, htext, hoffset⟩ := h
  cases hrest : c.rest with
  | nil =>
    have hsame : c.next = c := by simp [Cursor.next, hrest]
    rw [hsame]
    exact ⟨before, htext, hoffset⟩
  | cons x xs =>
    refine ⟨before ++ [x], ?_, ?_⟩
    · rw [rest_next, hrest, htext, hrest]
      simp
    · rw [offset_next hrest, hoffset]
      simp

/-- Skipping characters stays in the text. -/
theorem IsIn.skip (h : c.IsIn text) (n : Nat) : (c.skip n).IsIn text := by
  induction n generalizing c with
  | zero => exact h
  | succ n ih => exact ih h.next

/-- So does going on up to a rest. -/
theorem IsIn.upTo (h : c.IsIn text) (rest : List Char) : (c.upTo rest).IsIn text := h.skip _

end Cursor

/-- Whether a character may be passed over in the margin of a line. -/
def isMargin (c : Char) : Bool := c == ' ' || c == '\t' || c == '>'

namespace Margin

variable {text lead : List Char} {m m₁ m₂ : Margin}

/-- From one margin to another only `lead` is passed over, and columns are owed only for a tab in
it. -/
structure Passes (m₁ : Margin) (lead : List Char) (m₂ : Margin) : Prop where
  rest_eq : m₁.rest = lead ++ m₂.rest
  cursor_eq : m₂.cursor = m₁.cursor.skip lead.length
  isMargin : ∀ c ∈ lead, Markdown.isMargin c = true
  owed_le : lead = [] → m₂.owed ≤ m₁.owed

/-- A margin that passes characters stays in the text. -/
theorem Passes.isIn (h : m₁.Passes lead m₂) (hm : m₁.cursor.IsIn text) : m₂.cursor.IsIn text := by
  rw [h.cursor_eq]
  exact hm.skip _

/-- A margin passes nothing to itself. -/
theorem Passes.refl (m : Margin) : m.Passes [] m := ⟨rfl, rfl, by simp, fun _ ↦ Nat.le_refl _⟩

/-- Margins pass one after the other. -/
theorem Passes.trans {lead₁ lead₂ : List Char} {m₃ : Margin} (h₁ : m₁.Passes lead₁ m₂)
    (h₂ : m₂.Passes lead₂ m₃) : m₁.Passes (lead₁ ++ lead₂) m₃ where
  rest_eq := by rw [h₁.rest_eq, h₂.rest_eq, List.append_assoc]
  cursor_eq := by rw [h₂.cursor_eq, h₁.cursor_eq, Cursor.skip_skip, List.length_append]
  isMargin c hc := (List.mem_append.mp hc).elim (h₁.isMargin c) (h₂.isMargin c)
  owed_le hnil := by
    obtain ⟨rfl, rfl⟩ := List.append_eq_nil_iff.mp hnil
    exact Nat.le_trans (h₂.owed_le rfl) (h₁.owed_le rfl)

private theorem rest_of_next {x : Char} {xs : List Char} (h : m.rest = x :: xs) :
    m.cursor.next.rest = xs := by
  rw [Cursor.rest_next, show m.cursor.rest = x :: xs from h]
  rfl

/-- One character passed over. -/
private theorem passes_next {x : Char} {xs : List Char} (h : m.rest = x :: xs)
    (hx : Markdown.isMargin x = true) (column owed : Nat) :
    m.Passes [x] ⟨m.cursor.next, column, owed⟩ where
  rest_eq := by
    rw [h, rest, rest_of_next h]
    rfl
  cursor_eq := rfl
  isMargin := by simpa using hx
  owed_le h := by cases h

private theorem exists_passes_takeFrom {cs : List Char} (h : m.rest = cs) (n : Nat) :
    ∃ lead, m.Passes lead (m.takeFrom n cs).2 := by
  fun_induction takeFrom m n cs with
  | case1 => exact ⟨[], .refl _⟩
  | case2 m n cs ih =>
    obtain ⟨lead, hlead⟩ := ih (rest_of_next h)
    exact ⟨_, (passes_next h rfl _ _).trans hlead⟩
  | case3 m n cs width taken ih =>
    obtain ⟨lead, hlead⟩ := ih (rest_of_next h)
    exact ⟨_, (passes_next h rfl _ _).trans hlead⟩
  | case4 => exact ⟨[], .refl _⟩

/-- Columns that are owed already are taken first, without moving on. -/
private theorem passes_owed {owed : Nat} (h : owed ≤ m.owed) : m.Passes [] { m with owed } :=
  ⟨rfl, rfl, by simp, fun _ ↦ h⟩

/-- Taking columns passes characters. -/
theorem exists_passes_take (m : Margin) (n : Nat) : ∃ lead, m.Passes lead (m.take n).2 := by
  obtain ⟨lead, h⟩ := exists_passes_takeFrom
    (m := { m with owed := m.owed - min m.owed n }) rfl (n - min m.owed n)
  exact ⟨_, (passes_owed (Nat.sub_le _ _)).trans h⟩

/-- At the end of a text no column is taken but those owed. -/
theorem missing_take_of_rest_nil (h : m.rest = []) (n : Nat) :
    (m.take n).1 = n - m.owed := by
  have hnone (m : Margin) (n : Nat) : (m.takeFrom n []).1 = n := by cases n <;> rfl
  rw [take, h, hnone]
  omega

/-- Taking up to some columns passes characters. -/
theorem exists_passes_takeUpTo (m : Margin) (n : Nat) :
    ∃ lead, m.Passes lead (m.takeUpTo n).2 := m.exists_passes_take n

/-- Taking all columns passes the spaces and tabs. -/
theorem passes_takeAll (m : Margin) :
    m.Passes (m.rest.takeWhile fun c ↦ c == ' ' || c == '\t') m.takeAll where
  rest_eq := by
    have hcut := (List.takeWhile_append_dropWhile (p := fun c ↦ c == ' ' || c == '\t')
      (l := m.rest)).symm
    have hrest : m.takeAll.rest = _ := Cursor.rest_skip_length hcut
    rw [hrest]
    exact hcut
  cursor_eq := rfl
  isMargin c hc := by
    have hblank := List.all_eq_true.mp List.all_takeWhile c hc
    rw [Markdown.isMargin, hblank, Bool.true_or]
  owed_le _ := Nat.zero_le _

private theorem takeChar?_eq_some {c : Char} (h : m₁.takeChar? c = some m₂) :
    (∃ xs, m₁.rest = c :: xs) ∧ m₂ = m₁.next := by
  unfold takeChar? at h
  split at h
  · next x xs hrest =>
    split at h
    · next hx => exact ⟨⟨xs, by rw [hrest, hx]⟩, (Option.some.inj h).symm⟩
    · cases h
  · cases h

/-- Taking a quote mark passes characters. -/
theorem exists_passes_takeQuoteMark? (h : m₁.takeQuoteMark? = some m₂) :
    ∃ lead, m₁.Passes lead m₂ := by
  obtain ⟨m, hm, rfl⟩ := Option.map_eq_some_iff.mp h
  obtain ⟨⟨xs, hrest⟩, rfl⟩ := takeChar?_eq_some hm
  obtain ⟨lead, hlead⟩ := m₁.next.exists_passes_take 1
  exact ⟨_, (passes_next hrest rfl _ _).trans hlead⟩

private theorem exists_passes_continue? {k : Container} (h : m₁.continue? k = some m₂) :
    ∃ lead, m₁.Passes lead m₂ := by
  cases k with
  | document =>
    obtain rfl := Option.some.inj h
    exact ⟨[], .refl _⟩
  | quote =>
    obtain ⟨lead₁, h₁⟩ := m₁.exists_passes_take 3
    obtain ⟨lead₂, h₂⟩ := exists_passes_takeQuoteMark? h
    exact ⟨_, h₁.trans h₂⟩
  | list mark tight =>
    obtain rfl := Option.some.inj h
    exact ⟨[], .refl _⟩
  | item indent =>
    unfold continue? at h
    simp only at h
    split at h
    · obtain rfl := Option.some.inj h
      exact m₁.exists_passes_take indent
    · cases h

/-- Continuing containers passes characters. -/
theorem exists_passes_continueAll (path : List Container) (m : Margin) :
    ∃ lead, m.Passes lead (m.continueAll path).2 := by
  fun_induction continueAll m path with
  | case1 m => exact ⟨[], .refl m⟩
  | case2 m k ks m₂ hk ih =>
    obtain ⟨lead₁, h₁⟩ := exists_passes_continue? hk
    obtain ⟨lead₂, h₂⟩ := ih
    exact ⟨_, h₁.trans h₂⟩
  | case3 m => exact ⟨[], .refl m⟩

/-- Taking a list mark stays in the text. -/
theorem isIn_takeListMark? {indent content : Nat} {mark : Char}
    (h : m₁.takeListMark? indent = some (mark, content, m₂)) (hm : m₁.cursor.IsIn text) :
    m₂.cursor.IsIn text := by
  unfold takeListMark? at h
  split at h
  · cases h
  · obtain ⟨a, -, h⟩ := Option.bind_eq_some_iff.mp h
    simp only [Option.pure_def] at h
    generalize hmarked : (⟨m₁.cursor.skip (m₁.rest.length - a.rest.length), _, _⟩ : Margin) =
      marked at h
    have hin : marked.cursor.IsIn text := by
      rw [← hmarked]
      exact hm.skip _
    obtain ⟨lead₁, h₁⟩ := marked.exists_passes_take 1
    obtain ⟨lead₂, h₂⟩ := (marked.take 1).2.exists_passes_takeUpTo 4
    have hafter := h₁.isIn hin
    split at h
    · split at h
      · cases h
        exact hafter
      · split at h
        · cases h
          exact h₂.isIn hafter
        · cases h
          exact hafter
    · cases h

/-- Taking a task mark stays in the text. -/
theorem isIn_takeTaskMark? (h : m₁.takeTaskMark? = some m₂) (hm : m₁.cursor.IsIn text) :
    m₂.cursor.IsIn text := by
  obtain ⟨a, ha, h⟩ := Option.bind_eq_some_iff.mp h
  obtain ⟨lead, hlead⟩ := m₁.exists_passes_takeUpTo 3
  obtain ⟨-, rfl⟩ := takeChar?_eq_some ha
  split at h
  · cases h
  · split at h
    · obtain ⟨b, hb, h⟩ := Option.bind_eq_some_iff.mp h
      obtain ⟨-, rfl⟩ := takeChar?_eq_some hb
      split at h
      · split at h
        · cases h
          exact (hlead.isIn hm).next.next.next
        · cases h
      · cases h
    · cases h

end Margin

/-- The start of a line passes characters. -/
theorem exists_passes_lineStart (path : List Container) (c : Cursor) :
    ∃ lead, (Margin.ofCursor c).Passes lead (lineStart path c).2 :=
  (Margin.ofCursor c).exists_passes_continueAll path

end FencedCode.Markdown
