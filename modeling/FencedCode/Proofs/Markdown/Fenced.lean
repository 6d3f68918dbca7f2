import FencedCode.Proofs.Markdown.Readers
import FencedCode.Proofs.Text.Lines

/-!
# What a fenced code block is made of

The lines after an opening fence are lines of code, each behind the margin that is passed over
before it, and at last perhaps a closing fence. `FencedBody` says so without the reader, and what
the reader makes of a text is one such body: its pieces are the values of the lines, and the block
ends where the body does.
-/

namespace FencedCode.Markdown

/-- A line of a fenced code block: what is passed over before its code, the columns of a tab in it
that belong to the code, and the code itself with its line feed. -/
structure FencedLine where
  lead : List Char
  owed : Nat
  code : List Char

namespace FencedLine

/-- The line as it stands in the text. -/
def raw (l : FencedLine) : List Char := l.lead ++ l.code

/-- What the line adds to the value of the block. -/
def value (l : FencedLine) : List Char := List.replicate l.owed ' ' ++ dropCarriage l.code

/-- Nothing but a margin is passed over, and something is left of the line; columns are owed only
for a tab in the margin. -/
structure IsLine (l : FencedLine) : Prop where
  isMargin : ∀ c ∈ l.lead, isMargin c = true
  occupied : l.owed ≠ 0 ∨ l.code ≠ []
  lead_ne_nil : l.owed ≠ 0 → l.lead ≠ []

/-- A raw line is not empty. -/
theorem IsLine.raw_ne_nil {l : FencedLine} (h : l.IsLine) : l.raw ≠ [] := by
  intro hnil
  obtain ⟨hlead, hcode⟩ := List.append_eq_nil_iff.mp hnil
  rcases h.occupied with howed | hne
  · exact h.lead_ne_nil howed hlead
  · exact hne hcode

end FencedLine

/-- What closes a fence of `length` marks, before the rest of the text: the end of the text, or at
least as many marks, blanks and the end of the line. -/
def ClosesFence (mark : Char) (length : Nat) (closing rest : List Char) : Prop :=
  (closing = [] ∧ rest = []) ∨ ∃ marks blanks, length ≤ marks ∧
    closing = List.replicate marks mark ++ List.replicate blanks ' ' ∧
      (endingLength? rest).isSome = true

/-- A line that ends a fenced code block and is no line of code: behind a margin, it closes the
fence. -/
def EndsFence (mark : Char) (length : Nat) (line : List Char) : Prop :=
  ∃ lead closing rest, line = lead ++ closing ++ rest ∧ (∀ c ∈ lead, isMargin c = true) ∧
    ClosesFence mark length closing rest

/-- How the text after an opening fence falls into the lines of the block, what ends it on a line
that is no code, and the rest. -/
inductive FencedBody (mark : Char) (length : Nat) :
    List Char → List FencedLine → List Char → List Char → Prop
  /-- The block ends before a line that its containers do not reach. -/
  | left (rest : List Char) : FencedBody mark length rest [] [] rest
  | closed {lead closing rest : List Char} (hlead : ∀ c ∈ lead, isMargin c = true)
      (hclosing : ClosesFence mark length closing rest) :
      FencedBody mark length (lead ++ closing ++ rest) [] (lead ++ closing) rest
  | line {l : FencedLine} {cs ending rest : List Char} {lines : List FencedLine} (hl : l.IsLine)
      (hcode : Text.Terminated l.code ∨ ('\n' ∉ l.code ∧ cs = []))
      (hbody : FencedBody mark length cs lines ending rest) :
      FencedBody mark length (l.raw ++ cs) (l :: lines) ending rest

/-- Of what follows a closing fence only the end of the line matters. -/
theorem ClosesFence.of_prefix {mark : Char} {length : Nat} {closing rest more : List Char}
    (h : ClosesFence mark length closing rest) (hmore : more <+: rest) (hfeed : '\n' ∉ more) :
    ClosesFence mark length closing more := by
  rcases h with ⟨hclosing, rfl⟩ | ⟨marks, blanks, hle, hclosing, hending⟩
  · exact .inl ⟨hclosing, List.prefix_nil.mp hmore⟩
  · refine .inr ⟨marks, blanks, hle, hclosing, ?_⟩
    cases more with
    | nil => rfl
    | cons c more =>
      obtain ⟨rest', rfl⟩ := hmore
      have hc : c ≠ '\n' := fun heq ↦ hfeed (by simp [heq])
      by_cases hreturn : c = '\r'
      · subst hreturn
        unfold endingLength?
        split <;> simp_all
      · unfold endingLength? at hending
        split at hending <;> simp_all

/-- A body is made of its lines, its ending and the rest. -/
theorem FencedBody.text_eq {mark : Char} {length : Nat} {cs ending rest : List Char}
    {lines : List FencedLine} (h : FencedBody mark length cs lines ending rest) :
    cs = (lines.map FencedLine.raw).flatten ++ ending ++ rest := by
  induction h with
  | left rest => rfl
  | closed => simp
  | line hl hcode hbody ih =>
    rw [ih]
    simp

/-! ## The lines of a text -/

/-- A raw line and what follows it make up the text. -/
theorem rawLine_append_drop (cs : List Char) : rawLine cs ++ cs.drop (rawLine cs).length = cs := by
  induction cs with
  | nil => rfl
  | cons c cs ih =>
    unfold rawLine
    split
    · rfl
    · simpa using ih

private theorem rawLine_cases (cs : List Char) :
    Text.Terminated (rawLine cs) ∨ ('\n' ∉ cs ∧ rawLine cs = cs) := by
  induction cs with
  | nil => exact .inr ⟨by simp, rfl⟩
  | cons c cs ih =>
    unfold rawLine
    split
    · next hc =>
      rw [hc]
      exact .inl ⟨[], by simp, rfl⟩
    · next hc =>
      rcases ih with ⟨body, hbody, heq⟩ | ⟨hfeed, heq⟩
      · exact .inl ⟨c :: body, by simp [Ne.symm hc, hbody], by rw [heq]; rfl⟩
      · exact .inr ⟨by simp [Ne.symm hc, hfeed], by rw [heq]⟩

/-- The first line of a text is terminated, or nothing follows it. -/
theorem rawLine_terminated (cs : List Char) : Text.Terminated (rawLine cs) ∨
    ('\n' ∉ rawLine cs ∧ cs.drop (rawLine cs).length = []) :=
  (rawLine_cases cs).imp_right fun ⟨hnot, hall⟩ ↦
    ⟨by rwa [hall], by rw [hall, List.drop_length]⟩

private theorem rawLine_eq_nil {cs : List Char} : rawLine cs = [] ↔ cs = [] := by
  cases cs with
  | nil => simp [rawLine]
  | cons c cs =>
    unfold rawLine
    split <;> simp

/-- A margin holds no line feed. -/
theorem feed_not_mem_of_isMargin {lead : List Char} (h : ∀ c ∈ lead, isMargin c = true) :
    '\n' ∉ lead := by
  intro hfeed
  exact absurd (h _ hfeed) (by decide)

/-! ## The reader -/

private theorem takeWhile_beq_eq_replicate (x : Char) (cs : List Char) :
    cs.takeWhile (· == x) = List.replicate (cs.takeWhile (· == x)).length x :=
  List.eq_replicate_iff.mpr
    ⟨rfl, fun y hy ↦ eq_of_beq (a := y) (b := x) (List.all_eq_true.mp List.all_takeWhile y hy)⟩

private theorem take_length_takeWhile (p : Char → Bool) (cs : List Char) :
    cs.take (cs.takeWhile p).length = cs.takeWhile p :=
  (List.prefix_iff_eq_take.mp (List.takeWhile_prefix _)).symm

private theorem drop_length_takeWhile (p : Char → Bool) (cs : List Char) :
    cs.drop (cs.takeWhile p).length = cs.dropWhile p := by
  have hcut := List.takeWhile_append_dropWhile (p := p) (l := cs)
  exact List.append_cancel_left ((take_length_takeWhile p cs ▸ List.take_append_drop _ cs).trans
    hcut.symm)

/-- What ends a fenced code block closes its fence. -/
private theorem fenceEnd?_eq_some {mark : Char} {length n : Nat} {cs : List Char}
    (h : fenceEnd? mark length cs = some n) :
    ∃ closing rest, cs = closing ++ rest ∧ closing.length = n ∧
      ClosesFence mark length closing rest := by
  unfold fenceEnd? at h
  simp only at h
  split at h
  · next hnil =>
    obtain rfl := Option.some.inj h
    exact ⟨[], [], by simpa using hnil, rfl, .inl ⟨rfl, rfl⟩⟩
  · split at h
    · next hclosed =>
      obtain ⟨hle, hending⟩ := (Bool.and_eq_true _ _).mp hclosed
      obtain rfl := Option.some.inj h
      generalize hmarks : (cs.takeWhile (· == mark)).length = marks at hle hending ⊢
      generalize hblanks : ((cs.drop marks).takeWhile (· == ' ')).length = blanks at hending ⊢
      have htake : cs.take (marks + blanks) =
          List.replicate marks mark ++ List.replicate blanks ' ' := by
        rw [List.take_add, ← hmarks, take_length_takeWhile, hmarks, ← hblanks,
          take_length_takeWhile, ← takeWhile_beq_eq_replicate, takeWhile_beq_eq_replicate mark,
          hmarks]
      refine ⟨cs.take (marks + blanks), cs.drop (marks + blanks),
        (List.take_append_drop _ _).symm, by rw [htake]; simp, .inr ⟨marks, blanks, ?_, htake, ?_⟩⟩
      · exact of_decide_eq_true hle
      · exact hending
    · cases h

/-- Nothing but nothing is left without its carriage return. -/
theorem dropCarriage_eq_nil {cs : List Char} : dropCarriage cs = [] ↔ cs = [] := by
  unfold dropCarriage
  split
  · next c rest hrev =>
    have hne : cs ≠ [] := by
      rintro rfl
      cases hrev
    split <;> simp [hne]
  · exact Iff.rfl

/-- The pieces of a line hold its value. -/
private theorem flatMap_value_ofLine (markup : Bool) (owed : Nat) (c : Cursor) (line : List Char) :
    (Piece.ofLine markup owed c line).flatMap (·.value) =
      List.replicate owed ' ' ++ dropCarriage line := by
  have hblanks : (if owed = 0 then []
      else [(⟨false, List.replicate owed ' ', ⟨c.offset, c.offset⟩⟩ : Piece)]).flatMap (·.value) =
        List.replicate owed ' ' := by
    split
    · next h => rw [h]; rfl
    · simp
  unfold Piece.ofLine
  simp only
  split
  · next hnil => rw [hblanks, List.isEmpty_iff.mp hnil, List.append_nil]
  · rw [List.flatMap_append, hblanks]
    simp

variable {path : List Container} {indent length : Nat} {mark : Char}

/-- The line that follows a margin `m`, in which `lead` was passed over. -/
def FencedLine.ofMargin (lead : List Char) (m : Margin) : FencedLine :=
  ⟨lead, m.owed, rawLine m.rest⟩

/-- What is left of the text after a line: the margin passed over and the rest of the line go. -/
private theorem Margin.Passes.rest_eq_raw {m₁ m₂ : Margin} {lead : List Char} (h : m₁.Passes lead m₂) :
    m₁.rest = (FencedLine.ofMargin lead m₂).raw ++
      (m₂.cursor.skip (rawLine m₂.rest).length).rest := by
  have hrest : m₂.cursor.rest = m₂.rest := rfl
  rw [FencedLine.ofMargin, FencedLine.raw, Cursor.rest_skip, List.append_assoc, hrest,
    rawLine_append_drop, h.rest_eq]

private theorem Margin.Passes.offset_eq {m₁ m₂ : Margin} {lead : List Char}
    (h : m₁.Passes lead m₂) :
    (m₂.cursor.skip (rawLine m₂.rest).length).offset =
      m₁.cursor.offset + Text.byteLength (FencedLine.ofMargin lead m₂).raw := by
  rw [← Cursor.offset_skip h.rest_eq_raw, h.cursor_eq, Cursor.skip_skip, FencedLine.raw,
    List.length_append]
  rfl

/-- A line is terminated, or nothing follows it. -/
private theorem FencedLine.terminated_ofMargin (lead : List Char) (m : Margin) :
    Text.Terminated (ofMargin lead m).code ∨
      ('\n' ∉ (ofMargin lead m).code ∧ (m.cursor.skip (rawLine m.rest).length).rest = []) := by
  rw [Cursor.rest_skip]
  exact rawLine_terminated m.rest

/-- A line that does not end the block is a line of it: at the end of the text, and only there,
nothing is left of it but columns that are owed. -/
private theorem Margin.Passes.isLine {m₁ m₂ : Margin} {lead : List Char} (h : m₁.Passes lead m₂)
    (howed : m₁.owed = 0) (hindent : indent ≤ 3)
    (hend : (m₂.take (4 - indent)).1 = 0 ∨
      fenceEnd? mark length (m₂.take (4 - indent)).2.rest = none) :
    (FencedLine.ofMargin lead m₂).IsLine where
  isMargin := h.isMargin
  occupied := by
    cases hrest : m₂.rest with
    | cons x xs => exact .inr (by simp [FencedLine.ofMargin, rawLine_eq_nil, hrest])
    | nil =>
      refine .inl fun hzero ↦ ?_
      rcases hend with hmissing | hopen
      · rw [missing_take_of_rest_nil hrest, show m₂.owed = 0 from hzero] at hmissing
        omega
      · obtain ⟨lead', h'⟩ := m₂.exists_passes_take (4 - indent)
        have hnil : (m₂.take (4 - indent)).2.rest = [] :=
          (List.append_eq_nil_iff.mp (h'.rest_eq.symm.trans hrest)).2
        rw [hnil] at hopen
        cases hopen
  lead_ne_nil hne hnil := hne (Nat.le_zero.mp (howed ▸ h.owed_le hnil))

/-- A closing fence behind a margin is a body without code. -/
private theorem Margin.Passes.exists_closed {c : Cursor} {lead : List Char} {m : Margin} {n : Nat}
    (h : (Margin.ofCursor c).Passes lead m) (hclosing : fenceEnd? mark length m.rest = some n) :
    ∃ ending rest, FencedBody mark length c.rest [] ending rest ∧
      (m.cursor.skip n).offset = c.offset + Text.byteLength ending := by
  obtain ⟨closing, rest, hrest, rfl, hcloses⟩ := fenceEnd?_eq_some hclosing
  have htext : c.rest = (lead ++ closing) ++ rest := by
    rw [List.append_assoc, ← hrest]
    exact h.rest_eq
  refine ⟨lead ++ closing, rest, htext ▸ .closed h.isMargin hcloses, ?_⟩
  rw [h.cursor_eq, Cursor.skip_skip, ← List.length_append]
  exact Cursor.offset_skip htext

/-- The reader finds a body in the text at its cursor: the values of the lines come after those of
the pieces it was given, and the block ends where the body does. -/
theorem fencedLines_body {fuel : Nat} {c : Cursor} (path : List Container) (mark : Char)
    (length : Nat) (hindent : indent ≤ 3) (hfuel : c.rest.length < fuel) (pieces : List Piece) :
    ∃ lines ending rest, FencedBody mark length c.rest lines ending rest ∧
      (fencedLines path indent mark length fuel pieces c).1.flatMap (·.value) =
        pieces.reverse.flatMap (·.value) ++ lines.flatMap FencedLine.value ∧
      (fencedLines path indent mark length fuel pieces c).2.1 =
        c.offset + Text.byteLength ((lines.map FencedLine.raw).flatten ++ ending) := by
  induction fuel generalizing c pieces with
  | zero => omega
  | succ fuel ih =>
    obtain ⟨lead₁, h₁⟩ := exists_passes_lineStart path c
    obtain ⟨lead₂, h₂⟩ := (lineStart path c).2.exists_passes_take indent
    obtain ⟨lead₃, h₃⟩ := ((lineStart path c).2.take indent).2.exists_passes_take (4 - indent)
    have hcode := h₁.trans h₂
    unfold fencedLines
    simp only
    generalize ((lineStart path c).2.take indent).2 = m at h₃ hcode ⊢
    split
    · exact ⟨[], [], c.rest, .left _, by simp, by simp⟩
    · split
      · next n hn =>
        have hclosing : fenceEnd? mark length (m.take (4 - indent)).2.rest = some n := by
          split at hn
          · cases hn
          · exact hn
        obtain ⟨ending, rest, hbody, hstop⟩ := (hcode.trans h₃).exists_closed hclosing
        exact ⟨[], ending, rest, hbody, by simp, hstop⟩
      · next hnone =>
        have hend : (m.take (4 - indent)).1 = 0 ∨
            fenceEnd? mark length (m.take (4 - indent)).2.rest = none := by
          split at hnone
          · next hmissing => exact .inl hmissing
          · exact .inr hnone
        have hline := hcode.isLine rfl hindent hend
        have htext : c.rest = _ := hcode.rest_eq_raw
        have hshorter : (m.cursor.skip (rawLine m.rest).length).rest.length < fuel := by
          have hpos := List.length_pos_iff.mpr hline.raw_ne_nil
          rw [htext, List.length_append] at hfuel
          omega
        obtain ⟨lines, ending, rest, hbody, hvalue, hstop⟩ :=
          ih hshorter ((Piece.ofLine false m.owed m.cursor (rawLine m.rest)).reverse ++ pieces)
        have hbody' := hbody.line hline (FencedLine.terminated_ofMargin _ m)
        refine ⟨_, ending, rest, htext ▸ hbody', ?_, ?_⟩
        · rw [hvalue]
          simp [flatMap_value_ofLine, FencedLine.value, FencedLine.ofMargin]
        · rw [hstop, hcode.offset_eq]
          simp [Nat.add_assoc, Margin.ofCursor]

/-! ## The block -/

/-- A fenced code block in a text: what stands before it, its opening fence, and its body. -/
structure FencedBlock (text : List Char) where
  before : List Char
  mark : Char
  length : Nat
  /-- The rest of the line with the opening fence. -/
  info : List Char
  after : List Char
  lines : List FencedLine
  /-- What ends the block on a line that is no code. -/
  ending : List Char
  rest : List Char
  isMark : mark = '`' ∨ mark = '~'
  three_le : 3 ≤ length
  info_head : info.head? ≠ some mark
  text_eq : text = before ++ (List.replicate length mark ++ info) ++ after
  terminated : Text.Terminated info ∨ ('\n' ∉ info ∧ after = [])
  body : FencedBody mark length after lines ending rest

namespace FencedBlock

variable {text : List Char}

/-- The line with the opening fence, from there on. -/
def opening (b : FencedBlock text) : List Char := List.replicate b.length b.mark ++ b.info

/-- The lines of code as they stand in the text. -/
def raw (b : FencedBlock text) : List Char := (b.lines.map FencedLine.raw).flatten

/-- The code. -/
def value (b : FencedBlock text) : List Char := b.lines.flatMap FencedLine.value

/-- The text up to the end of the block. -/
def upto (b : FencedBlock text) : List Char := b.before ++ b.opening ++ b.raw ++ b.ending

/-- The bytes of the block. -/
def span (b : FencedBlock text) : Span := ⟨Text.byteLength b.before, Text.byteLength b.upto⟩

/-- The mark is no line feed. -/
theorem mark_ne_feed (b : FencedBlock text) : b.mark ≠ '\n' := by
  rcases b.isMark with h | h
  all_goals
    rw [h]
    decide

/-- The mark is no carriage return. -/
theorem mark_ne_return (b : FencedBlock text) : b.mark ≠ '\r' := by
  rcases b.isMark with h | h
  all_goals
    rw [h]
    decide

/-- The run of marks holds no line feed. -/
theorem feed_not_mem_marks (b : FencedBlock text) : '\n' ∉ List.replicate b.length b.mark := by
  simp [List.mem_replicate, b.mark_ne_feed.symm]

/-- The opening fence has a line feed, or it is all that is left of the text. -/
theorem opening_terminated (b : FencedBlock text) :
    Text.Terminated b.opening ∨ ('\n' ∉ b.opening ∧ b.after = []) :=
  b.terminated.imp (·.append_left b.feed_not_mem_marks) fun h ↦
    ⟨by simp [opening, b.feed_not_mem_marks, h.1], h.2⟩

/-- The text is the block with what stands before it, and the rest. -/
theorem text_eq_upto (b : FencedBlock text) : text = b.upto ++ b.rest := by
  calc text = b.before ++ b.opening ++ b.after := b.text_eq
    _ = b.upto ++ b.rest := by
      rw [b.body.text_eq]
      simp [upto, raw]

end FencedBlock

private theorem fenceStart?_eq_some {n : Nat} {cs : List Char}
    (h : fenceStart? cs = some (mark, n)) :
    (mark = '`' ∨ mark = '~') ∧ 3 ≤ n ∧ cs.take n = List.replicate n mark ∧
      (cs.drop n).head? ≠ some mark := by
  cases cs with
  | nil => cases h
  | cons c cs =>
    unfold fenceStart? at h
    simp only at h
    split at h
    · next hmarks =>
      obtain ⟨hmark, hlength⟩ := (Bool.and_eq_true _ _).mp hmarks
      split at h
      · cases h
      · obtain ⟨rfl, rfl⟩ := Prod.mk.inj (Option.some.inj h)
        refine ⟨by simpa using hmark, of_decide_eq_true hlength, ?_, ?_⟩
        · rw [take_length_takeWhile, ← takeWhile_beq_eq_replicate]
        · have hnot := List.head?_dropWhile_not (· == c) (c :: cs)
          rw [drop_length_takeWhile]
          intro hhead
          rw [hhead] at hnot
          simp at hnot
    · cases h

/-- The reader of fenced code blocks makes a block of the text of what it reads. -/
theorem exists_fencedBlock {text : List Char} {c : Cursor} (path : List Container)
    (hc : c.IsIn text) (h : fenceStart? c.rest = some (mark, length)) (hindent : indent ≤ 3) :
    ∃ (b : FencedBlock text) (info : List Char) (pieces : List Piece),
      (readFenced path indent mark length c).1 = .code (some info) b.span pieces ∧
        pieces.flatMap (·.value) = b.value := by
  obtain ⟨before, htext, hoffset⟩ := hc
  obtain ⟨hmark, hlength, hmarks, hhead⟩ := fenceStart?_eq_some h
  generalize hinfo : rawLine (c.rest.drop length) = info
  generalize hnext : c.skip (length + info.length) = next
  have hcut : c.rest = (List.replicate length mark ++ info) ++ next.rest := by
    rw [← hnext, Cursor.rest_skip, ← List.drop_drop, ← hmarks, ← hinfo, List.append_assoc,
      rawLine_append_drop, List.take_append_drop]
  have hterm : Text.Terminated info ∨ ('\n' ∉ info ∧ next.rest = []) := by
    have hfirst := rawLine_terminated (c.rest.drop length)
    rwa [hinfo, List.drop_drop, ← Cursor.rest_skip, hnext] at hfirst
  have hstart : info.head? ≠ some mark := by
    intro hmark'
    obtain ⟨rest, hrest⟩ := List.head?_eq_some_iff.mp hmark'
    have hcut' := rawLine_append_drop (c.rest.drop length)
    rw [hinfo, hrest] at hcut'
    exact hhead (by rw [← hcut']; rfl)
  have hfuel : next.rest.length < c.rest.length + 2 := by
    rw [hcut, List.length_append]
    omega
  obtain ⟨lines, ending, rest, hbody, hvalue, hstop⟩ :=
    fencedLines_body path mark length hindent hfuel []
  let b : FencedBlock text :=
    { before, mark, length, info, after := next.rest, lines, ending, rest, isMark := hmark,
      three_le := hlength, info_head := hstart,
      text_eq := by rw [htext, hcut, ← List.append_assoc], terminated := hterm, body := hbody }
  obtain ⟨i, hread⟩ : ∃ i, (readFenced path indent mark length c).1 = .code (some i)
      ⟨c.offset, (fencedLines path indent mark length (c.rest.length + 2) [] next).2.1⟩
      (fencedLines path indent mark length (c.rest.length + 2) [] next).1 := by
    rw [← hnext, ← hinfo]
    exact ⟨_, rfl⟩
  have hbytes : next.offset = Text.byteLength (before ++ b.opening) := by
    rw [Text.byteLength_append, ← hoffset, ← hnext]
    have hlen : length + info.length = b.opening.length := by simp [b, FencedBlock.opening]
    rw [hlen]
    exact Cursor.offset_skip hcut
  have hspan : b.span = ⟨c.offset, (fencedLines path indent mark length (c.rest.length + 2) []
      next).2.1⟩ := by
    rw [hstop, hbytes, hoffset, ← Text.byteLength_append]
    simp [FencedBlock.span, FencedBlock.upto, FencedBlock.raw, b]
  exact ⟨b, i, _, hspan ▸ hread, hvalue⟩

end FencedCode.Markdown
