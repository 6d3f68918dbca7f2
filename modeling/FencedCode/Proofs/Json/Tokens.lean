import FencedCode.Json.Reader
import FencedCode.Json.Writer
import Mathlib.Data.List.Basic

/-!
# Strings and numbers of JSON

A string that is written, escapes and all, is read as the text that it was written for, and a
natural number as that number where no more of a number follows.
-/

namespace FencedCode.Json

/-! ## Strings -/

private theorem readParts_mark (cs : List Char) : readParts ('"' :: cs) = some ([], cs) := by
  rw [readParts.eq_def]
  rfl

private theorem readParts_escape {e x : Char} (h : escaped? e = some x) (cs : List Char) :
    readParts ('\\' :: e :: cs) = (readParts cs).map fun (ps, rest) ↦ (.char x :: ps, rest) := by
  have he : e ≠ 'u' := by
    rintro rfl
    cases h
  rw [readParts.eq_4 _ _ _ fun _ _ _ _ _ heq ↦ absurd heq he, h]
  rfl

private theorem hexValue4?_control : ∀ n < 0x20,
    hexValue4? '0' '0' (hexDigit (n / 16)) (hexDigit n) = some n := by decide

private theorem readParts_unit {n : Nat} (h : n < 0x20) (cs : List Char) :
    readParts ('\\' :: 'u' :: '0' :: '0' :: hexDigit (n / 16) :: hexDigit n :: cs) =
      (readParts cs).map fun (ps, rest) ↦ (.unit n :: ps, rest) := by
  rw [readParts, hexValue4?_control n h]
  rfl

private theorem readParts_plain {c : Char} (hmark : c ≠ '"') (hescape : c ≠ '\\')
    (h : ¬c.toNat < 0x20)
    (cs : List Char) :
    readParts (c :: cs) = (readParts cs).map fun (ps, rest) ↦ (.char c :: ps, rest) := by
  rw [readParts.eq_def]
  simp only [hmark, hescape, h, if_false]

private theorem joinParts_char (c : Char) (ps : List StringPart) :
    joinParts (.char c :: ps) = (joinParts ps).map (c :: ·) := by
  rw [joinParts]

/-- The number of a control character is no surrogate, whatever follows. -/
private theorem joinParts_unit {n : Nat} (h : n < 0x20) (ps : List StringPart) :
    joinParts (.unit n :: ps) = (joinParts ps).map (Char.ofNat n :: ·) := by
  have hhigh : isHighSurrogate n = false := by
    simp [isHighSurrogate]
    omega
  have hlow : isLowSurrogate n = false := by
    simp [isLowSurrogate]
    omega
  match ps with
  | [] => simp [joinParts, hhigh, hlow]
  | .char c :: ps => simp [joinParts, hhigh, hlow]
  | .unit m :: ps => simp [joinParts, hhigh, hlow]

/-- The characters that are written by a letter. -/
def lettered : List Char := ['"', '\\', '\n', '\r', '\t', Char.ofNat 0x08, Char.ofNat 0x0C]

private theorem exists_escaped?_of_mem : ∀ c ∈ lettered,
    ∃ e, escapeChar c = ['\\', e] ∧ escaped? e = some c := by
  simp [lettered, escapeChar, escaped?]

/-- A character is written by a letter, by its number or as itself. -/
theorem escapeChar_cases (c : Char) :
    (∃ e, escapeChar c = ['\\', e] ∧ escaped? e = some c) ∨
      (c.toNat < 0x20 ∧
        escapeChar c = ['\\', 'u', '0', '0', hexDigit (c.toNat / 16), hexDigit c.toNat]) ∨
      (c ≠ '"' ∧ c ≠ '\\' ∧ ¬c.toNat < 0x20 ∧ escapeChar c = [c]) := by
  by_cases hmem : c ∈ lettered
  · exact .inl (exists_escaped?_of_mem c hmem)
  · have hcode (n : Nat) (hne : c ≠ Char.ofNat n) : c.toNat ≠ n := fun h ↦
      hne (h ▸ (Char.ofNat_toNat c).symm)
    simp only [lettered, List.mem_cons, List.not_mem_nil, or_false, not_or] at hmem
    obtain ⟨hmark, hescape, hfeed, hreturn, htab, hback, hpage⟩ := hmem
    simp only [escapeChar, hmark, hescape, hfeed, hreturn, htab, hcode 0x08 hback,
      hcode 0x0C hpage, if_false]
    by_cases hcontrol : c.toNat < 0x20
    · exact .inr (.inl ⟨hcontrol, if_pos hcontrol⟩)
    · exact .inr (.inr ⟨hmark, hescape, hcontrol, if_neg hcontrol⟩)

/-- However a character is written, it is read as one part, which stands for it. -/
private theorem exists_readParts_escapeChar (c : Char) : ∃ p,
    (∀ cs, readParts (escapeChar c ++ cs) =
      (readParts cs).map fun (ps, rest) ↦ (p :: ps, rest)) ∧
    ∀ ps, joinParts (p :: ps) = (joinParts ps).map (c :: ·) := by
  rcases escapeChar_cases c with ⟨e, hwritten, he⟩ | ⟨hcontrol, hwritten⟩ |
    ⟨hmark, hescape, hcontrol, hwritten⟩
  · refine ⟨.char c, fun cs ↦ ?_, joinParts_char c⟩
    rw [hwritten]
    exact readParts_escape he cs
  · refine ⟨.unit c.toNat, fun cs ↦ ?_, fun ps ↦ ?_⟩
    · rw [hwritten]
      exact readParts_unit hcontrol cs
    · rw [joinParts_unit hcontrol, Char.ofNat_toNat]
  · refine ⟨.char c, fun cs ↦ ?_, joinParts_char c⟩
    rw [hwritten]
    exact readParts_plain hmark hescape hcontrol cs

/-- A string is read as the text that it was written for. -/
theorem readString_escaped (s rest : List Char) :
    readString (s.flatMap escapeChar ++ '"' :: rest) = some (some s, rest) := by
  have hparts : ∃ ps, readParts (s.flatMap escapeChar ++ '"' :: rest) = some (ps, rest) ∧
      joinParts ps = some s := by
    induction s with
    | nil => exact ⟨[], readParts_mark rest, by rw [joinParts]⟩
    | cons c s ih =>
      obtain ⟨ps, hread, hjoin⟩ := ih
      obtain ⟨p, hp, hc⟩ := exists_readParts_escapeChar c
      refine ⟨p :: ps, ?_, ?_⟩
      · rw [List.flatMap_cons, List.append_assoc, hp, hread]
        rfl
      · rw [hc, hjoin]
        rfl
  obtain ⟨ps, hread, hjoin⟩ := hparts
  rw [readString, hread, ← hjoin]
  rfl

/-! ## Numbers -/

private theorem isDigit_of_mem_digits {n : Nat} {c : Char} (h : c ∈ digits n) : c.isDigit = true :=
  Nat.isDigit_of_mem_toDigits (by decide) (by decide) h

/-- A numeral has a first digit. -/
theorem exists_digits_eq (n : Nat) : ∃ d ds, digits n = d :: ds ∧ d.isDigit = true := by
  obtain ⟨d, ds, h⟩ := List.exists_cons_of_ne_nil (Nat.toDigits_ne_nil (b := 10) (n := n))
  exact ⟨d, ds, h, isDigit_of_mem_digits (h ▸ List.mem_cons_self)⟩

/-- No number is written with a leading zero. -/
private theorem digits_ne_zero_cons (n : Nat) (c : Char) (cs : List Char) : digits n ≠ '0' :: c :: cs := by
  induction n using Nat.strongRecOn generalizing c cs with
  | ind n ih =>
    intro h
    rw [digits] at h
    rcases Nat.lt_or_ge n 10 with hn | hn
    · rw [Nat.toDigits_of_lt_base hn] at h
      simp at h
    · rw [Nat.toDigits_of_base_le (by decide) hn] at h
      cases hd : Nat.toDigits 10 (n / 10) with
      | nil => exact Nat.toDigits_ne_nil hd
      | cons d ds =>
        rw [hd, List.cons_append] at h
        obtain ⟨rfl, -⟩ := List.cons.inj h
        cases ds with
        | nil =>
          -- a zero alone writes the tenth part only where that is zero
          have hvalue := Nat.ofDigitChars_ten_toDigits (n := n / 10)
          rw [hd] at hvalue
          simp [Nat.ofDigitChars] at hvalue
          omega
        | cons d ds => exact ih (n / 10) (by omega) d ds hd

private theorem numeral_digits (n : Nat) : Text.numeral 10 (digits n) = n := by
  calc
    Text.numeral 10 (digits n) = Nat.ofDigitChars 10 (digits n) 0 := by
      refine List.foldl_ext _ _ _ fun m c hc ↦ ?_
      rw [Text.digitValue?, if_pos (isDigit_of_mem_digits hc)]
      rfl
    _ = n := Nat.ofDigitChars_ten_toDigits

/-- Whether a text does not go on with a number that stands before it. -/
def EndsNumber (rest : List Char) : Prop :=
  ∀ c, rest.head? = some c → c.isDigit = false ∧ c ≠ '.' ∧ c ≠ 'e' ∧ c ≠ 'E'

/-- A number that ends there has no fraction. -/
theorem EndsNumber.fractionLength? {rest : List Char} (h : EndsNumber rest) :
    fractionLength? rest = some 0 := by
  unfold Json.fractionLength?
  split
  · next cs => exact absurd rfl (h '.' rfl).2.1
  · rfl

/-- A number that ends there has no exponent. -/
theorem EndsNumber.exponentLength? {rest : List Char} (h : EndsNumber rest) :
    exponentLength? rest = some 0 := by
  unfold Json.exponentLength?
  split
  · next c cs => simp [(h c rfl).2.2]
  · rfl

/-- A natural number is read as the one that it was written for. -/
theorem readNumber_digits (n : Nat) {rest : List Char} (h : EndsNumber rest) :
    readNumber (digits n ++ rest) = some (.natural n, rest) := by
  have hhead : rest.takeWhile Char.isDigit = [] ∧ rest.dropWhile Char.isDigit = rest := by
    cases rest with
    | nil => exact ⟨rfl, rfl⟩
    | cons c rest => simp [(h c rfl).1]
  have htake : (digits n ++ rest).takeWhile Char.isDigit = digits n := by
    rw [List.takeWhile_append_of_pos fun c ↦ isDigit_of_mem_digits, hhead.1, List.append_nil]
  have hdrop : (digits n ++ rest).dropWhile Char.isDigit = rest := by
    rw [List.dropWhile_append_of_pos fun c ↦ isDigit_of_mem_digits, hhead.2]
  have hvalue := numeral_digits n
  have hzero := digits_ne_zero_cons n
  obtain ⟨d, ds, hd, hdigit⟩ := exists_digits_eq n
  rw [hd] at htake hdrop hvalue hzero ⊢
  unfold readNumber
  extract_lets sign whole
  have hsign : sign = 0 := by
    unfold sign
    split
    · next heq =>
      rw [(List.cons.inj heq).1] at hdigit
      cases hdigit
    · rfl
  have hwhole : whole = d :: ds := by rw [← htake, ← List.drop_zero (l := _ ++ _), ← hsign]
  clear_value sign whole
  subst hsign hwhole
  split
  · next heq => cases heq
  · next c cs heq => exact absurd heq (hzero c cs)
  · next tail _ _ _ =>
    have htail : tail = rest := hdrop
    clear_value tail
    subst htail
    simp [h.fractionLength?, h.exponentLength?, hvalue]

end FencedCode.Json
