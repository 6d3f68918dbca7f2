import FencedCode.Proofs.Text.Blank
import FencedCode.Toml.Quoted
import FencedCode.Toml.Writer
import Mathlib.Data.List.Basic

/-!
# Strings of TOML

A string is read as the text that it was written for, whichever of the four kinds of quotation marks
it was given.
-/

namespace FencedCode.Toml

/-! ## Characters -/

/-- The characters that are escaped by a letter. -/
def lettered : List Char := ['"', '\\', '\n', '\r', '\t', Char.ofNat 0x08, Char.ofNat 0x0C]

/-- Whether a text after a backslash is read as a character. It does not start with a blank or a
line ending, so that no line ends at the backslash. -/
structure IsEscape (code : List Char) (c : Char) : Prop where
  read (rest : List Char) : escape? (code ++ rest) = some (c, rest)
  not_endsLine (rest : List Char) : endsLine (code ++ rest) = false

private theorem escapeChar_lettered : ∀ c ∈ lettered, ∃ e ∈ ['"', '\\', 'n', 'r', 't', 'b', 'f'],
    escapeChar c = ['\\', e] ∧ codeWidth e = 0 ∧ escaped? e = some c := by
  simp [lettered, escapeChar, codeWidth, escaped?]

private theorem codeChar?_control : ∀ n < 0x80,
    codeChar? ['0', '0', hexDigit (n / 16), hexDigit n] = some (Char.ofNat n) := by
  decide

private theorem endsLine_letter (cs : List Char) :
    ∀ e ∈ ['"', '\\', 'n', 'r', 't', 'b', 'f', 'u'], endsLine (e :: cs) = false := by
  simp [endsLine, isSpace]

/-- A character stands for itself in a basic string or is escaped. -/
theorem escapeChar_cases (c : Char) :
    (∃ code, escapeChar c = '\\' :: code ∧ IsEscape code c) ∨
      (isPlain c = true ∧ c ≠ '"' ∧ c ≠ '\\' ∧ c ≠ '\n' ∧ c ≠ '\r' ∧ escapeChar c = [c]) := by
  by_cases hmem : c ∈ lettered
  · obtain ⟨e, hmem, hwritten, hwidth, he⟩ := escapeChar_lettered c hmem
    refine .inl ⟨[e], hwritten, fun rest ↦ ?_, fun rest ↦ endsLine_letter rest e ?_⟩
    · rw [List.singleton_append, escape?, if_pos hwidth, he, Option.map_some]
    · exact List.mem_append_left ['u'] hmem
  · have hcode (n : Nat) (hne : c ≠ Char.ofNat n) : c.toNat ≠ n := fun h ↦
      hne (h ▸ (Char.ofNat_toNat c).symm)
    simp only [lettered, List.mem_cons, List.not_mem_nil, or_false, not_or] at hmem
    obtain ⟨hmark, hescape, hfeed, hreturn, htab, hback, hpage⟩ := hmem
    simp only [escapeChar, hmark, hescape, hfeed, hreturn, htab, hcode 0x08 hback,
      hcode 0x0C hpage, if_false]
    by_cases hcontrol : c.toNat < 0x20 ∨ c.toNat = 0x7F
    · refine .inl ⟨_, if_pos (by simpa using hcontrol), fun rest ↦ ?_, fun rest ↦ ?_⟩
      · have hchar := codeChar?_control c.toNat (by omega)
        rw [Char.ofNat_toNat] at hchar
        simp [escape?, codeWidth, hchar]
      · exact endsLine_letter _ 'u' (by simp)
    · refine .inr ⟨?_, hmark, hescape, hfeed, hreturn, if_neg (by simpa using hcontrol)⟩
      rw [not_or] at hcontrol
      simp only [isPlain, Bool.or_eq_true, Bool.and_eq_true, decide_eq_true_eq, bne_iff_ne]
      exact .inr ⟨by omega, hcontrol.2⟩

/-- A character that needs no escape is a line feed or may stand for itself. -/
private theorem isPlain_of_not_needsEscape {c : Char} (h : needsEscape c = false) (hfeed : c ≠ '\n') :
    isPlain c = true := by
  simp only [needsEscape, Bool.or_eq_false_iff, Bool.and_eq_false_imp, Bool.and_eq_true,
    decide_eq_true_eq, bne_iff_ne, beq_eq_false_iff_ne, bne_eq_false_iff_eq] at h
  simp only [isPlain, Bool.or_eq_true, Bool.and_eq_true, decide_eq_true_eq, bne_iff_ne, beq_iff_eq]
  by_cases htab : c = '\t'
  · exact .inl htab
  · by_cases hlow : c.toNat < 0x20
    · exact absurd (h.1 ⟨hlow, htab⟩) hfeed
    · exact .inr ⟨by omega, h.2⟩

private theorem ne_return_of_not_needsEscape {c : Char} (h : needsEscape c = false) : c ≠ '\r' := by
  rintro rfl
  cases h

/-! ## Strings on one line -/

/-- However a character is written in a basic string, it is read as itself. -/
private theorem readBasic_escapeChar (c : Char) (cs : List Char) :
    readBasic (escapeChar c ++ cs) = (readBasic cs).map fun (s, rest) ↦ (c :: s, rest) := by
  rcases escapeChar_cases c with ⟨code, hwritten, hcode⟩ | ⟨hplain, hmark, hescape, -, -, hwritten⟩
  · rw [hwritten, List.cons_append, readBasic, if_neg (by decide), if_pos rfl]
    split
    · next heq => rw [hcode.read] at heq; cases heq
    · next heq =>
      rw [hcode.read] at heq
      obtain ⟨rfl, rfl⟩ := Prod.mk.inj (Option.some.inj heq)
      rfl
  · rw [hwritten, List.singleton_append, readBasic, if_neg hmark, if_neg hescape, if_pos hplain]

private theorem readBasic_escaped (s rest : List Char) :
    readBasic (s.flatMap escapeChar ++ '"' :: rest) = some (s, rest) := by
  induction s with
  | nil => rw [List.flatMap_nil, List.nil_append, readBasic, if_pos rfl]
  | cons c s ih =>
    rw [List.flatMap_cons, List.append_assoc, readBasic_escapeChar, ih]
    rfl

private theorem readLiteral_append {s : List Char} (hplain : ∀ c ∈ s, isPlain c = true)
    (hmark : '\'' ∉ s)
    (rest : List Char) : readLiteral (s ++ '\'' :: rest) = some (s, rest) := by
  induction s with
  | nil => rw [List.nil_append, readLiteral, if_pos rfl]
  | cons c s ih =>
    obtain ⟨hc, hs⟩ := List.forall_mem_cons.mp hplain
    rw [List.cons_append, readLiteral, if_neg (List.ne_of_not_mem_cons hmark).symm, if_pos hc,
      ih hs (List.not_mem_of_not_mem_cons hmark)]
    rfl

/-! ## Runs of marks -/

/-- Less than three marks close no string. -/
private theorem closing?_eq_none {mark : Char} {n : Nat} (hn : n < 2) {rest : List Char}
    (h : rest.head? ≠ some mark) : closing? mark (List.replicate n mark ++ rest) = none := by
  rw [closing?, Text.takeWhile_replicate_append n h, List.length_replicate]
  exact if_pos hn

/-- Of up to five marks, the last three close a string. -/
private theorem closing?_eq_some {mark : Char} {n : Nat} (hn : n ≤ 2) {rest : List Char}
    (h : rest.head? ≠ some mark) :
    closing? mark (List.replicate (n + 2) mark ++ rest) = some (List.replicate n mark, rest) := by
  have hkept : min (n + 2 - 2) 2 = n := by omega
  rw [closing?, Text.takeWhile_replicate_append (n + 2) h, List.length_replicate]
  simp only [hkept, show ¬n + 2 < 2 by omega, if_false]
  rw [List.drop_left' List.length_replicate]

private theorem longestRunFrom_le {mark : Char} (n : Nat) (s : List Char) :
    n ≤ longestRunFrom mark n s := by
  induction s generalizing n with
  | nil => exact Nat.le_refl n
  | cons c s ih =>
    rw [longestRunFrom]
    split
    · exact Nat.le_trans (Nat.le_succ n) (ih (n + 1))
    · exact Nat.le_max_left ..

private theorem not_mem_of_longestRun_eq_zero {mark : Char} {s : List Char}
    (h : longestRun mark s = 0) :
    mark ∉ s := by
  induction s with
  | nil => exact List.not_mem_nil
  | cons c s ih =>
    rw [longestRun, longestRunFrom] at h
    split at h
    · exact absurd h (Nat.ne_of_gt (longestRunFrom_le 1 s))
    · next hne =>
      rw [Nat.max_eq_zero_iff] at h
      exact List.not_mem_cons_of_ne_of_not_mem (Ne.symm hne) (ih h.2)

/-! ## Strings over several lines -/

/-- Whether a reader closes a string at a mark where it can and keeps the mark where it cannot. -/
def ClosesAt (mark : Char) (read : List Char → Option (List Char × List Char)) : Prop :=
  ∀ cs, read (mark :: cs) =
    (closing? mark cs).or ((read cs).map fun (s, rest) ↦ (mark :: s, rest))

private theorem closesAt_readLiteralLines : ClosesAt '\'' readLiteralLines := fun cs ↦ by
  rw [readLiteralLines]
  exact if_pos rfl

private theorem closesAt_readBasicLines : ClosesAt '"' readBasicLines := fun cs ↦ by
  rw [readBasicLines, if_pos rfl]
  cases closing? '"' cs with
  | none => rfl
  | some closed => rfl

section ClosesAt

variable {mark : Char} {read : List Char → Option (List Char × List Char)} {n : Nat}

/-- The marks of a run that is too short to close the string are kept. -/
private theorem ClosesAt.read_replicate (h : ClosesAt mark read) (hn : n ≤ 2) {x : Char} (hx : x ≠ mark)
    (cs : List Char) : read (List.replicate n mark ++ x :: cs) =
      (read (x :: cs)).map fun (s, rest) ↦ (List.replicate n mark ++ s, rest) := by
  induction n with
  | zero => simp
  | succ n ih =>
    rw [List.replicate_succ, List.cons_append, h,
      closing?_eq_none (by omega) (by simpa using hx), ih (by omega), Option.none_or,
      Option.map_map]
    rfl

/-- Marks before the three that close the string belong to it. -/
private theorem ClosesAt.read_closing (h : ClosesAt mark read) (hn : n ≤ 2) {rest : List Char}
    (hrest : rest.head? ≠ some mark) :
    read (List.replicate n mark ++ mark :: mark :: mark :: rest) =
      some (List.replicate n mark, rest) := by
  have hmarks : List.replicate n mark ++ mark :: mark :: mark :: rest =
      mark :: (List.replicate (n + 2) mark ++ rest) := by
    rw [← List.cons_append, ← List.replicate_succ, show n + 2 + 1 = n + 3 by rfl,
      List.replicate_add, List.append_assoc]
    rfl
  rw [hmarks, h, closing?_eq_some hn hrest, Option.some_or]

end ClosesAt

/-- A character that needs no escape is kept. -/
private theorem readLiteralLines_cons {c : Char} (h : needsEscape c = false) (hmark : c ≠ '\'')
    (cs : List Char) : readLiteralLines (c :: cs) =
      (readLiteralLines cs).map fun (s, rest) ↦ (c :: s, rest) := by
  rw [readLiteralLines, if_neg hmark, if_neg (ne_return_of_not_needsEscape h)]
  refine if_pos ?_
  by_cases hfeed : c = '\n'
  · simp [hfeed]
  · simp [isPlain_of_not_needsEscape h hfeed]

/-- A text without control characters is read to its end, where `n` marks came right before it. -/
private theorem readLiteralLines_append {n : Nat} {s : List Char} (hs : ∀ c ∈ s, needsEscape c = false)
    (hn : longestRunFrom '\'' n s ≤ 2) {rest : List Char} (hrest : rest.head? ≠ some '\'') :
    readLiteralLines (List.replicate n '\'' ++ (s ++ '\'' :: '\'' :: '\'' :: rest)) =
      some (List.replicate n '\'' ++ s, rest) := by
  -- the marks of a run stay in front until it is known whether the run closes the string
  induction s generalizing n with
  | nil =>
    rw [List.nil_append, List.append_nil]
    exact closesAt_readLiteralLines.read_closing hn hrest
  | cons c s ih =>
    obtain ⟨hc, hs⟩ := List.forall_mem_cons.mp hs
    rw [longestRunFrom] at hn
    split at hn
    · next heq =>
      have hread := ih hs hn
      rw [List.replicate_succ', List.append_assoc, List.append_assoc] at hread
      subst heq
      exact hread
    · next hne =>
      have hread := ih (n := 0) hs (by omega)
      rw [List.cons_append, closesAt_readLiteralLines.read_replicate (by omega) hne,
        readLiteralLines_cons hc hne]
      rw [List.replicate_zero, List.nil_append, List.nil_append] at hread
      rw [hread]
      rfl

/-- However a character is written in a basic string, it is read as itself in one of several lines
too. -/
private theorem readBasicLines_escapeChar (c : Char) (cs : List Char) :
    readBasicLines (escapeChar c ++ cs) =
      (readBasicLines cs).map fun (s, rest) ↦ (c :: s, rest) := by
  rcases escapeChar_cases c with ⟨code, hwritten, hcode⟩ |
    ⟨hplain, hmark, hescape, -, hreturn, hwritten⟩
  · rw [hwritten, List.cons_append, readBasicLines, if_neg (by decide), if_pos rfl,
      if_neg (by simp [hcode.not_endsLine])]
    split
    · next heq => rw [hcode.read] at heq; cases heq
    · next heq =>
      rw [hcode.read] at heq
      obtain ⟨rfl, rfl⟩ := Prod.mk.inj (Option.some.inj heq)
      rfl
  · rw [hwritten, List.singleton_append, readBasicLines, if_neg hmark, if_neg hescape,
      if_neg hreturn, if_pos (by simp [hplain])]

/-- What is written for a character does not start with a mark, unless it is a mark that needs no
escape. -/
private theorem exists_escapeLines_cons {n : Nat} {c : Char} (h : c = '"' → n = 2) (s : List Char) :
    ∃ x xs, escapeLines n (c :: s) = x :: (xs ++ escapeLines 0 s) ∧ x ≠ '"' ∧
      ∀ cs, readBasicLines (x :: (xs ++ cs)) =
        (readBasicLines cs).map fun (s, rest) ↦ (c :: s, rest) := by
  rw [escapeLines]
  by_cases hmark : c = '"'
  · subst hmark
    rw [if_pos rfl, if_pos (h rfl)]
    exact ⟨'\\', ['"'], rfl, by decide, readBasicLines_escapeChar '"'⟩
  · rw [if_neg hmark]
    by_cases hfeed : c = '\n'
    · subst hfeed
      refine ⟨'\n', [], rfl, by decide, fun cs ↦ ?_⟩
      rw [List.nil_append, readBasicLines, if_neg (by decide), if_neg (by decide),
        if_neg (by decide), if_pos (by decide)]
    · rw [if_neg hfeed]
      have hread := readBasicLines_escapeChar c
      rcases escapeChar_cases c with ⟨code, hwritten, -⟩ | ⟨-, -, -, -, -, hwritten⟩
      · rw [hwritten] at hread ⊢
        exact ⟨'\\', code, rfl, by decide, hread⟩
      · rw [hwritten] at hread ⊢
        exact ⟨c, [], rfl, hmark, hread⟩

/-- Any text is read to its end, where `n` marks came right before it. -/
private theorem readBasicLines_escapeLines {n : Nat} (hn : n ≤ 2) (s : List Char) {rest : List Char}
    (hrest : rest.head? ≠ some '"') :
    readBasicLines (List.replicate n '"' ++ (escapeLines n s ++ '"' :: '"' :: '"' :: rest)) =
      some (List.replicate n '"' ++ s, rest) := by
  induction s generalizing n with
  | nil =>
    rw [escapeLines, List.nil_append, List.append_nil]
    exact closesAt_readBasicLines.read_closing hn hrest
  | cons c s ih =>
    -- a mark joins the run before it, unless it is the third, which is escaped
    by_cases hraw : c = '"' ∧ n ≠ 2
    · obtain ⟨rfl, hne⟩ := hraw
      have hread := ih (show n + 1 ≤ 2 by omega)
      rw [List.replicate_succ', List.append_assoc, List.append_assoc] at hread
      rw [escapeLines, if_pos rfl, if_neg hne]
      exact hread
    · obtain ⟨x, xs, hwritten, hx, hread⟩ :=
        exists_escapeLines_cons (fun hc ↦ by_contra fun hne ↦ hraw ⟨hc, hne⟩) s
      have hrest := ih (Nat.zero_le 2)
      rw [List.replicate_zero, List.nil_append, List.nil_append] at hrest
      rw [hwritten, List.cons_append, List.append_assoc,
        closesAt_readBasicLines.read_replicate hn hx, hread, hrest]
      rfl

/-! ## Strings of any kind -/

/-- The line feed that was put before a text is dropped. -/
private theorem dropEnding_firstEnding (s : List Char) {written : List Char}
    (h : '\n' ∉ s → written.head? ≠ some '\n' ∧ written.head? ≠ some '\r') :
    dropEnding (firstEnding s ++ written) = written := by
  rw [firstEnding]
  by_cases hmem : '\n' ∈ s
  · rw [if_pos (by simpa using hmem)]
    rfl
  · rw [if_neg (by simpa using hmem), List.nil_append]
    obtain ⟨hfeed, hreturn⟩ := h hmem
    unfold dropEnding
    split
    · exact absurd rfl hfeed
    · exact absurd rfl hreturn
    · rfl

private theorem head?_escapeLines {s : List Char} (hs : '\n' ∉ s) (cs : List Char) :
    (escapeLines 0 s ++ '"' :: cs).head? ≠ some '\n' ∧
      (escapeLines 0 s ++ '"' :: cs).head? ≠ some '\r' := by
  cases s with
  | nil => exact ⟨by simp [escapeLines], by simp [escapeLines]⟩
  | cons c s =>
    have hfeed : c ≠ '\n' := (List.ne_of_not_mem_cons hs).symm
    rw [escapeLines]
    by_cases hmark : c = '"'
    · rw [if_pos hmark, if_neg (by decide)]
      exact ⟨by simp, by simp⟩
    · rw [if_neg hmark, if_neg hfeed]
      rcases escapeChar_cases c with ⟨code, hwritten, -⟩ | ⟨-, -, -, -, hreturn, hwritten⟩
      · rw [hwritten]
        exact ⟨by simp, by simp⟩
      · rw [hwritten]
        exact ⟨by simpa using hfeed, by simpa using hreturn⟩

private theorem head?_append_mark {s : List Char} (hs : ∀ c ∈ s, needsEscape c = false)
    (hfeed : '\n' ∉ s)
    (cs : List Char) :
    (s ++ '\'' :: cs).head? ≠ some '\n' ∧ (s ++ '\'' :: cs).head? ≠ some '\r' := by
  cases s with
  | nil => exact ⟨by simp, by simp⟩
  | cons c s =>
    have hreturn := ne_return_of_not_needsEscape (hs c List.mem_cons_self)
    exact ⟨by simpa using (List.ne_of_not_mem_cons hfeed).symm, by simpa using hreturn⟩

/-- A literal string on one line is written only where each character may stand for itself. -/
private theorem of_quoteStyle_eq_literal {s : List Char} (h : quoteStyle s = .literal) :
    s ≠ [] ∧ (∀ c ∈ s, needsEscape c = false) ∧ '\n' ∉ s ∧ '\'' ∉ s := by
  unfold quoteStyle at h
  extract_lets singles doubles control slash lines at h
  split_ifs at h with hsimple hbasic hliteral
  simp only [Bool.and_eq_true, Bool.not_eq_true', decide_eq_true_eq] at hliteral
  obtain ⟨⟨hcontrol, hlines⟩, hsingles⟩ := hliteral
  refine ⟨?_, by simpa [control] using hcontrol, by simpa [lines] using hlines,
    not_mem_of_longestRun_eq_zero hsingles⟩
  rintro rfl
  exact hsimple rfl

/-- And over several lines where no run of marks closes it too early. -/
private theorem of_quoteStyle_eq_literalLines {s : List Char} (h : quoteStyle s = .literalLines) :
    (∀ c ∈ s, needsEscape c = false) ∧ longestRun '\'' s ≤ 2 := by
  unfold quoteStyle at h
  extract_lets singles doubles control slash lines at h
  split_ifs at h with hsimple hbasic hliteral hbasicLines hliteralLines
  simp only [Bool.and_eq_true, Bool.not_eq_true', decide_eq_true_eq] at hliteralLines
  exact ⟨by simpa [control] using hliteralLines.1, hliteralLines.2⟩

/-- However a string is written, it is read as itself where no mark follows. -/
theorem readQuoted_quote (s : List Char) {rest : List Char} (hdouble : rest.head? ≠ some '"')
    (hsingle : rest.head? ≠ some '\'') : readQuoted (quote s ++ rest) = some (s, rest) := by
  rw [quote]
  cases hstyle : quoteStyle s with
  | basic =>
    simp only [List.cons_append, List.append_assoc, List.nil_append]
    rw [readQuoted.eq_2, readBasic_escaped]
    intro cs heq
    cases s with
    | nil => exact hdouble (by rw [(List.cons.inj heq).2]; rfl)
    | cons c s =>
      rw [List.flatMap_cons] at heq
      rcases escapeChar_cases c with ⟨code, hwritten, -⟩ | ⟨-, hmark, -, -, -, hwritten⟩
      · rw [hwritten] at heq
        exact absurd (List.cons.inj heq).1 (by decide)
      · rw [hwritten] at heq
        exact hmark (List.cons.inj heq).1
  | literal =>
    obtain ⟨hne, hs, hfeed, hmark⟩ := of_quoteStyle_eq_literal hstyle
    have hplain : ∀ c ∈ s, isPlain c = true := fun c hc ↦
      isPlain_of_not_needsEscape (hs c hc) fun heq ↦ hfeed (heq ▸ hc)
    simp only [List.cons_append, List.append_assoc, List.nil_append]
    rw [readQuoted.eq_4, readLiteral_append hplain hmark]
    intro cs heq
    obtain ⟨c, s, rfl⟩ := List.exists_cons_of_ne_nil hne
    exact (List.ne_of_not_mem_cons hmark) (List.cons.inj heq).1.symm
  | basicLines =>
    simp only [List.cons_append, List.append_assoc, List.nil_append]
    rw [readQuoted.eq_1, dropEnding_firstEnding s fun hs ↦ head?_escapeLines hs _]
    exact readBasicLines_escapeLines (Nat.zero_le 2) s hdouble
  | literalLines =>
    obtain ⟨hs, hrun⟩ := of_quoteStyle_eq_literalLines hstyle
    simp only [List.cons_append, List.append_assoc, List.nil_append]
    rw [readQuoted.eq_3, dropEnding_firstEnding s fun hfeed ↦ head?_append_mark hs hfeed _]
    exact readLiteralLines_append (n := 0) hs hrun hsingle

/-- A string starts with one of the two marks. -/
theorem exists_quote_eq (s : List Char) :
    ∃ mark cs, quote s = mark :: cs ∧ (mark = '"' ∨ mark = '\'') := by
  rw [quote]
  cases quoteStyle s with
  | basic => exact ⟨_, _, rfl, .inl rfl⟩
  | literal => exact ⟨_, _, rfl, .inr rfl⟩
  | basicLines => exact ⟨_, _, rfl, .inl rfl⟩
  | literalLines => exact ⟨_, _, rfl, .inr rfl⟩

end FencedCode.Toml
