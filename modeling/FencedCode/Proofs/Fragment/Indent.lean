import FencedCode.Fragment
import FencedCode.Proofs.ContainerPrefix
import FencedCode.Proofs.LineIndex.Lines

/-!
# Lines freed of their container prefix

The indent of a block is the container prefix that stands before it on its opening line. What is
taken off a line is the start of its container prefix, never more than the indent allows; a line
that starts with an indent's worth of container prefix loses exactly that, whatever follows it.
-/

namespace FencedCode

/-- The indent of a block is as much of its opening line's container prefix as stands before it. -/
theorem containerIndent_eq {x : LineIndex} {n : Node} {opening : List Char}
    (h : x.lineText? n.range.start.line = some opening) :
    containerIndent x n = min (n.range.start.column - 1) (ContainerPrefix.length opening) := by
  unfold containerIndent
  cases n.range.start.column with
  | zero => exact (Nat.zero_min _).symm
  | succ k =>
    rw [h, Nat.add_sub_cancel]
    exact ContainerPrefix.length_take k opening

/-- A block without a line has no indent. -/
theorem containerIndent_of_none {x : LineIndex} {n : Node}
    (h : x.lineText? n.range.start.line = none) : containerIndent x n = 0 := by
  unfold containerIndent
  rw [h]
  split
  · rfl
  · rfl

/-- The indent is all that stands before a block on its line exactly when that is container prefix
throughout. -/
theorem containerIndent_eq_iff {x : LineIndex} {n : Node} {opening : List Char}
    (h : x.lineText? n.range.start.line = some opening) :
    containerIndent x n = n.range.start.column - 1 ↔ n.range.start.column - 1 ≤ opening.length ∧
      ∀ c ∈ opening.take (n.range.start.column - 1), ContainerPrefix.isMember c = true := by
  rw [containerIndent_eq h, ← ContainerPrefix.le_length_iff]
  omega

/-- What is dropped and what is kept make up the line. -/
theorem length_dropIndent (indent : Nat) (line : List Char) :
    (dropIndent indent line).1 + (dropIndent indent line).2.length = line.length := by
  have hle := ContainerPrefix.length_le line
  simp only [dropIndent, List.length_drop]
  omega

/-- What is taken off a line is the start of its container prefix. -/
theorem take_dropIndent (indent : Nat) (line : List Char) :
    line.take (dropIndent indent line).1 = (ContainerPrefix.of line).take indent := by
  rw [← take_length_of, List.take_take]
  rfl

/-- Only quote markers and blanks are taken off a line. -/
theorem isMember_of_mem_take_dropIndent {indent : Nat} {line : List Char} {c : Char}
    (h : c ∈ line.take (dropIndent indent line).1) : ContainerPrefix.isMember c = true := by
  rw [take_dropIndent] at h
  exact List.all_eq_true.mp List.all_takeWhile c (List.mem_of_mem_take h)

/-- A line is what is taken off it and what is left. -/
theorem exists_dropIndent (indent : Nat) (line : List Char) :
    ∃ stripped, line = stripped ++ (dropIndent indent line).2 ∧
      line.take (dropIndent indent line).1 = stripped ∧
        stripped.length = (dropIndent indent line).1 ∧
          ∀ c ∈ stripped, ContainerPrefix.isMember c = true := by
  have hle : (dropIndent indent line).1 ≤ line.length := by
    rw [← length_dropIndent indent line]
    exact Nat.le_add_right _ _
  exact ⟨_, (List.take_append_drop _ _).symm, rfl, List.length_take_of_le hle,
    fun c ↦ isMember_of_mem_take_dropIndent⟩

/-- A line that starts with members of a container prefix loses that many characters. -/
theorem dropIndent_append {lead : List Char} (h : ∀ c ∈ lead, ContainerPrefix.isMember c = true)
    (rest : List Char) : dropIndent lead.length (lead ++ rest) = (lead.length, rest) := by
  have hle : lead.length ≤ ContainerPrefix.length (lead ++ rest) := by
    rw [ContainerPrefix.length_append h]
    exact Nat.le_add_right _ _
  simp only [dropIndent, Nat.min_eq_left hle, List.drop_left]

/-- A line of nothing but members of a container prefix loses all of them. -/
theorem dropIndent_eq_nil {lead : List Char} (h : ∀ c ∈ lead, ContainerPrefix.isMember c = true)
    {indent : Nat} (hle : lead.length ≤ indent) : (dropIndent indent lead).2 = [] := by
  simp only [dropIndent, ContainerPrefix.length_eq h, Nat.min_eq_right hle, List.drop_length]

/-- Of members of a container prefix before another character, those beyond the indent are left. -/
theorem dropIndent_append_of_head? {lead rest : List Char}
    (h : ∀ c ∈ lead, ContainerPrefix.isMember c = true)
    (hrest : ∀ c, rest.head? = some c → ContainerPrefix.isMember c = false) (indent : Nat) :
    (dropIndent indent (lead ++ rest)).2 = lead.drop indent ++ rest := by
  have hlength := ContainerPrefix.length_append h rest
  rw [ContainerPrefix.length_eq_zero_iff.mpr hrest, Nat.add_zero] at hlength
  rw [dropIndent, hlength, List.drop_append_of_le_length (Nat.min_le_right _ _)]
  rcases Nat.le_total indent lead.length with hle | hle
  · rw [Nat.min_eq_left hle]
  · rw [Nat.min_eq_right hle, List.drop_length, List.drop_eq_nil_of_le hle]

/-- What follows an indent's worth of container prefix on a terminated line is what is left of the
line, even when the prefix ends in a carriage return that the line feed takes with it. -/
theorem dropIndent_text (start : Nat) {lead rest terminator : List Char}
    (h : ∀ c ∈ lead, ContainerPrefix.isMember c = true) (hreturn : '\r' ∉ rest)
    (hterm : terminator = ['\n'] ∨ terminator = ['\r', '\n']) :
    (dropIndent lead.length (⟨start, lead ++ rest ++ terminator⟩ : Line).text).2 = rest := by
  rcases hterm with rfl | rfl
  · by_cases hlast : (lead ++ rest).getLast? = some '\r'
    · have hrest : rest = [] := by
        rcases List.eq_nil_or_concat rest with hnil | ⟨init, c, rfl⟩
        · exact hnil
        · rw [List.concat_eq_append, ← List.append_assoc, List.getLast?_concat] at hlast
          simp [Option.some.inj hlast] at hreturn
      subst hrest
      rw [List.append_nil] at hlast ⊢
      obtain ⟨init, rfl⟩ := List.getLast?_eq_some_iff.mp hlast
      rw [List.append_assoc, List.singleton_append, Line.text_append_return_feed]
      exact dropIndent_eq_nil (fun c hc ↦ h c (by simp [hc])) (by simp)
    · rw [Line.text_append_feed hlast, dropIndent_append h]
  · rw [Line.text_append_return_feed, dropIndent_append h]

/-- Beyond what is taken off a line and the rest of its container prefix, nothing is lost. -/
theorem dropWhile_dropIndent (indent : Nat) (line : List Char) :
    (dropIndent indent line).2.dropWhile ContainerPrefix.isMember =
      line.dropWhile ContainerPrefix.isMember := by
  obtain ⟨stripped, hline, -, -, hmember⟩ := exists_dropIndent indent line
  calc (dropIndent indent line).2.dropWhile ContainerPrefix.isMember
      = (stripped ++ (dropIndent indent line).2).dropWhile ContainerPrefix.isMember :=
        (List.dropWhile_append_of_pos hmember).symm
    _ = line.dropWhile ContainerPrefix.isMember := by rw [← hline]

/-- Text behind members of a container prefix is all left on a line exactly when it does not go on
with a quote marker, or when as many characters stand before it as the indent allows to take off. -/
theorem suffix_dropIndent_iff {lead text : List Char}
    (h : ∀ c ∈ lead, ContainerPrefix.isMember c = true)
    (htext : ∀ c, text.head? = some c → Text.isBlank c = false) (indent : Nat) :
    text <:+ (dropIndent indent (lead ++ text)).2 ↔
      text.head? ≠ some ContainerPrefix.marker ∨ indent + text.length ≤ (lead ++ text).length := by
  have hlength := ContainerPrefix.length_append h text
  have hle := ContainerPrefix.length_le text
  have hsuffix : text <:+ (dropIndent indent (lead ++ text)).2 ↔
      min indent (lead.length + ContainerPrefix.length text) ≤ lead.length := by
    rw [dropIndent, hlength]
    constructor
    · intro hsuffix
      have hlen := hsuffix.length_le
      rw [List.length_drop, List.length_append] at hlen
      omega
    · intro hmin
      rw [List.drop_append_of_le_length hmin]
      exact List.suffix_append _ _
  have hmarker : ContainerPrefix.length text = 0 ↔ text.head? ≠ some ContainerPrefix.marker := by
    rw [ContainerPrefix.length_eq_zero_iff]
    constructor
    · intro hnone hhead
      exact absurd (hnone _ hhead) (by decide)
    · intro hhead c hc
      have hne : c ≠ ContainerPrefix.marker := fun heq ↦ hhead (heq ▸ hc)
      rw [ContainerPrefix.isMember, htext c hc, Bool.or_false, beq_eq_false_iff_ne]
      exact hne
  rw [hsuffix, ← hmarker, List.length_append]
  omega

end FencedCode
