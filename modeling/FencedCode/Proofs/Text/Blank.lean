import FencedCode.Text.Blank

/-!
# Texts without the blanks around them

A text is the blanks at its start, what is left without them, and the same at its end. Blanks that
are added at an end are trimmed with those that are there. A run of one character ends where another
comes.
-/

namespace FencedCode.Text

/-- The run at the start of a text ends where another character stands. -/
theorem takeWhile_replicate_append {mark : Char} (n : Nat) {rest : List Char}
    (h : rest.head? ≠ some mark) :
    (List.replicate n mark ++ rest).takeWhile (· == mark) = List.replicate n mark := by
  have hrest : rest.takeWhile (· == mark) = [] := by
    cases rest with
    | nil => rfl
    | cons c rest =>
      exact List.takeWhile_cons_of_neg fun hc ↦ h (congrArg some (beq_iff_eq.mp hc))
  rw [List.takeWhile_append_of_pos fun c hc ↦ beq_iff_eq.mpr (List.eq_of_mem_replicate hc), hrest,
    List.append_nil]

/-- Blanks go up to a character that is none. -/
theorem trimStart_append {blanks rest : List Char} (hblanks : ∀ c ∈ blanks, isBlank c = true)
    (hrest : ∀ c, rest.head? = some c → isBlank c = false) : trimStart (blanks ++ rest) = rest := by
  rw [trimStart, List.dropWhile_append_of_pos hblanks]
  cases rest with
  | nil => rfl
  | cons c rest => simp [hrest c rfl]

/-- A text that does not start with a blank is left as it is. -/
theorem trimStart_of_head? {cs : List Char} (h : ∀ c, cs.head? = some c → isBlank c = false) :
    trimStart cs = cs :=
  trimStart_append (List.forall_mem_nil _) h

/-- A text is blanks and then what is left without them. -/
theorem exists_trimStart (cs : List Char) : ∃ blanks, cs = blanks ++ trimStart cs ∧
    (∀ c ∈ blanks, isBlank c = true) ∧
      ∀ c, (trimStart cs).head? = some c → isBlank c = false := by
  refine ⟨cs.takeWhile isBlank, List.takeWhile_append_dropWhile.symm,
    List.all_eq_true.mp List.all_takeWhile, fun c hc ↦ ?_⟩
  have h := List.head?_dropWhile_not isBlank cs
  rw [trimStart] at hc
  simpa [hc] using h

private theorem trimEnd_eq (cs : List Char) : trimEnd cs = (trimStart cs.reverse).reverse := rfl

/-- Blanks at the end do not matter. -/
theorem trimEnd_append_blanks (cs : List Char) {blanks : List Char}
    (hblanks : ∀ c ∈ blanks, isBlank c = true) : trimEnd (cs ++ blanks) = trimEnd cs := by
  rw [trimEnd, List.reverse_append, List.dropWhile_append_of_pos, trimEnd]
  intro c hc
  exact hblanks c (List.mem_reverse.mp hc)

/-- A text that does not end in a blank is left as it is. -/
theorem trimEnd_of_getLast? {cs : List Char}
    (h : ∀ c, cs.getLast? = some c → isBlank c = false) : trimEnd cs = cs := by
  rw [trimEnd_eq, trimStart_of_head?, List.reverse_reverse]
  intro c hc
  rw [List.head?_reverse] at hc
  exact h c hc

/-- A text is what is left without the blanks at its end and then these. -/
theorem exists_trimEnd (cs : List Char) : ∃ blanks, cs = trimEnd cs ++ blanks ∧
    (∀ c ∈ blanks, isBlank c = true) ∧
      ∀ c, (trimEnd cs).getLast? = some c → isBlank c = false := by
  obtain ⟨blanks, hcs, hblanks, hhead⟩ := exists_trimStart cs.reverse
  refine ⟨blanks.reverse, ?_, ?_, ?_⟩
  · rw [trimEnd_eq, ← List.reverse_append, ← hcs, List.reverse_reverse]
  · intro c hc
    exact hblanks c (List.mem_reverse.mp hc)
  · intro c hc
    rw [trimEnd_eq, List.getLast?_reverse] at hc
    exact hhead c hc

/-- What was trimmed at its end has nothing left to trim there. -/
@[simp] theorem trimEnd_trimEnd (cs : List Char) : trimEnd (trimEnd cs) = trimEnd cs := by
  obtain ⟨-, -, -, hlast⟩ := exists_trimEnd cs
  exact trimEnd_of_getLast? hlast

/-- Nothing but blanks at the end is lost. -/
theorem trimEnd_prefix (cs : List Char) : trimEnd cs <+: cs := by
  obtain ⟨blanks, hcs, -⟩ := exists_trimEnd cs
  exact ⟨blanks, hcs.symm⟩

end FencedCode.Text
