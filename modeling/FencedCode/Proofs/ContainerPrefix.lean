import FencedCode.ContainerPrefix
import FencedCode.Proofs.Text.Bytes

/-!
# Container prefixes in characters and in bytes

A container prefix is measured twice: by the number of its characters, and by the byte offset of the
first character behind it. Both measure the same run of quote markers and blanks, the longest one
that a line starts with.
-/

namespace FencedCode

/-- The first character that fails a test starts where the characters before it end. -/
private theorem Text.find?_placeChars (p : Char → Bool) (start : Nat) (cs : List Char) :
    (placeChars start cs).find? (fun placed ↦ !p placed.2) =
      (cs.dropWhile p).head?.map fun c ↦ (start + byteLength (cs.takeWhile p), c) := by
  induction cs generalizing start with
  | nil => rfl
  | cons c cs ih =>
    rw [placeChars, List.find?_cons, List.dropWhile_cons, List.takeWhile_cons]
    cases hc : p c with
    | true => simp [ih, Nat.add_assoc]
    | false => simp

namespace ContainerPrefix

/-- Blanks belong to a container prefix. -/
theorem isMember_of_isBlank {c : Char} (h : Text.isBlank c = true) : isMember c = true := by
  rw [isMember, h, Bool.or_true]

/-- The members of a container prefix are the quote marker and the blanks. -/
theorem isMember_iff {c : Char} : isMember c = true ↔ c = marker ∨ Text.isBlank c = true := by
  rw [isMember, Bool.or_eq_true, beq_iff_eq]

/-- Members of a container prefix add to the one behind them. -/
theorem length_append {lead : List Char} (h : ∀ c ∈ lead, isMember c = true)
    (rest : List Char) : length (lead ++ rest) = lead.length + length rest := by
  rw [length, of, List.takeWhile_append_of_pos h, List.length_append]
  rfl

/-- Characters that belong to a prefix are a prefix as a whole. -/
theorem length_eq {lead : List Char} (h : ∀ c ∈ lead, isMember c = true) :
    length lead = lead.length := by
  have hlength := length_append h []
  rwa [List.append_nil] at hlength

/-- The prefix is no longer than its line. -/
theorem length_le (line : List Char) : length line ≤ line.length :=
  (List.takeWhile_sublist _).length_le

/-- A line has no container prefix exactly when it starts with no member of one. -/
theorem length_eq_zero_iff {line : List Char} :
    length line = 0 ↔ ∀ c, line.head? = some c → isMember c = false := by
  cases line with
  | nil => simp [length, of]
  | cons c line =>
    rw [length, of, List.takeWhile_cons]
    cases hc : isMember c <;> simp [hc]

/-- The start of a line has as much of the container prefix as it has room for. -/
theorem length_take (k : Nat) (line : List Char) :
    length (line.take k) = min k (length line) := by
  rw [length, of, ← List.take_takeWhile, List.length_take]
  rfl

/-- A container prefix has as many characters as the line starts with members of one. -/
theorem le_length_iff {k : Nat} {line : List Char} :
    k ≤ length line ↔ k ≤ line.length ∧ ∀ c ∈ line.take k, isMember c = true := by
  constructor
  · intro hle
    refine ⟨Nat.le_trans hle (length_le line), fun c hc ↦ ?_⟩
    have htake : line.take k <+: of line :=
      List.prefix_of_prefix_length_le (List.take_prefix _ _) (List.takeWhile_prefix _)
        (Nat.le_trans (List.length_take_le _ _) hle)
    exact List.all_eq_true.mp List.all_takeWhile c (htake.subset hc)
  · rintro ⟨hle, hmember⟩
    have hlength := length_eq hmember
    rw [length_take, List.length_take_of_le hle] at hlength
    rw [← hlength]
    exact Nat.min_le_right _ _

/-- The offset of the first character behind a container prefix is the prefix's length in bytes. -/
theorem byteLength_eq (line : List Char) : byteLength line = Text.byteLength (of line) := by
  have hline : of line ++ line.dropWhile isMember = line := List.takeWhile_append_dropWhile
  rw [byteLength, Text.find?_placeChars]
  cases hrest : line.dropWhile isMember with
  | nil =>
    rw [hrest, List.append_nil] at hline
    rw [hline]
    rfl
  | cons c rest => exact Nat.zero_add _

/-- Nor does it take more bytes than its line. -/
theorem byteLength_le (line : List Char) : byteLength line ≤ Text.byteLength line := by
  rw [byteLength_eq]
  exact Text.byteLength_le_of_prefix (List.takeWhile_prefix _)

end ContainerPrefix

/-- The prefix is what a line begins with. -/
theorem take_length_of (line : List Char) :
    line.take (ContainerPrefix.length line) = ContainerPrefix.of line :=
  (List.prefix_iff_eq_take.mp (List.takeWhile_prefix _)).symm

end FencedCode
