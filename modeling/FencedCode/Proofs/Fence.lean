import FencedCode.ContainerPrefix
import FencedCode.Fence
import FencedCode.Proofs.Text.Blank

/-!
# Lines that are fences

A run of fence characters at the start of a line opens a fence as long as the run, and is closed by
another run at least as long with nothing but blanks around it. A line without a fence character
behind its container prefix closes none.
-/

namespace FencedCode

namespace FenceMark

private theorem char_injective : Function.Injective char := by
  intro m n h
  have hmarks := congrArg ofChar? h
  rw [ofChar?_char, ofChar?_char] at hmarks
  exact Option.some.inj hmarks

/-- The mark of a fence does not belong to a container prefix. -/
theorem isMember_char (m : FenceMark) : ContainerPrefix.isMember m.char = false := by
  cases m <;> rfl

private theorem isBlank_char (m : FenceMark) : Text.isBlank m.char = false := by
  cases m <;> rfl

/-- Backticks and tildes are the characters of marks. -/
theorem exists_char_eq {c : Char} (h : c = '`' ∨ c = '~') : ∃ m : FenceMark, m.char = c :=
  h.elim (fun h ↦ ⟨.backtick, h.symm⟩) fun h ↦ ⟨.tilde, h.symm⟩

private theorem ofChar?_eq_some_iff {c : Char} {m : FenceMark} :
    ofChar? c = some m ↔ m.char = c := by
  constructor
  · intro h
    unfold ofChar? at h
    grind [char]
  · rintro rfl
    exact ofChar?_char m

end FenceMark

namespace Fence

/-! ## Runs -/

/-- Whether a text begins with a character exactly `n` times. -/
def BeginsWithRun (c : Char) (n : Nat) (cs : List Char) : Prop :=
  ∃ rest, cs = List.replicate n c ++ rest ∧ rest.head? ≠ some c

/-- A run that is not empty begins with its character. -/
theorem head?_replicate_append (c : Char) {n : Nat} (hn : 0 < n) (rest : List Char) :
    (List.replicate n c ++ rest).head? = some c := by
  rw [List.head?_append, List.head?_replicate, if_neg (Nat.ne_of_gt hn), Option.some_or]

/-- A run ends where another character comes. -/
theorem runLength_replicate_append (c : Char) (n : Nat) {rest : List Char}
    (h : rest.head? ≠ some c) : runLength c (List.replicate n c ++ rest) = n := by
  rw [runLength, Text.takeWhile_replicate_append n h, List.length_replicate]

private theorem runLength_eq_iff {c : Char} {n : Nat} {cs : List Char} :
    runLength c cs = n ↔ BeginsWithRun c n cs := by
  constructor
  · rintro rfl
    have hall : ∀ x ∈ cs.takeWhile (· == c), x = c := fun x hx ↦
      eq_of_beq (a := x) (List.all_eq_true.mp List.all_takeWhile x hx)
    refine ⟨cs.dropWhile (· == c), ?_, ?_⟩
    · rw [runLength, ← List.eq_replicate_iff.mpr ⟨rfl, hall⟩, List.takeWhile_append_dropWhile]
    · intro hhead
      have hnot := List.head?_dropWhile_not (· == c) cs
      rw [hhead] at hnot
      simp at hnot
  · rintro ⟨rest, rfl, hrest⟩
    exact runLength_replicate_append c n hrest

/-! ## Opening fences -/

/-- A line opens the fence that it begins with, leading blanks apart. -/
theorem opening?_eq_some_iff {line : List Char} {f : Fence} :
    opening? line = some f ↔
      minLength ≤ f.length ∧ BeginsWithRun f.mark.char f.length (Text.trimStart line) := by
  constructor
  · intro h
    unfold opening? at h
    simp only at h
    split at h
    · cases h
    · next c rest htrim =>
      obtain ⟨mark, hmark, h⟩ := Option.bind_eq_some_iff.mp h
      obtain rfl := FenceMark.ofChar?_eq_some_iff.mp hmark
      split at h
      · next hle =>
        obtain rfl := Option.some.inj h
        exact ⟨hle, runLength_eq_iff.mp rfl⟩
      · cases h
  · rintro ⟨hle, info, htrim, hinfo⟩
    have hrun := runLength_replicate_append f.mark.char f.length hinfo
    obtain ⟨k, hk⟩ := Nat.exists_eq_add_of_le' (Nat.le_trans (by decide) hle : 1 ≤ f.length)
    rw [opening?, htrim]
    rw [hk, List.replicate_succ, List.cons_append] at hrun ⊢
    simp only [FenceMark.ofChar?_char, Option.bind_some, hrun, ← hk, hle, if_true]

/-- A run of fence characters opens the fence of that length. -/
theorem opening?_replicate_append (mark : FenceMark) {n : Nat} (hn : minLength ≤ n)
    {info : List Char} (hinfo : info.head? ≠ some mark.char) :
    opening? (List.replicate n mark.char ++ info) = some ⟨mark, n⟩ := by
  refine opening?_eq_some_iff.mpr ⟨hn, info, Text.trimStart_of_head? fun c hc ↦ ?_, hinfo⟩
  rw [head?_replicate_append _ (Nat.lt_of_lt_of_le (by decide) hn)] at hc
  exact Option.some.inj hc ▸ mark.isBlank_char

/-- An opening fence has the least length or more. -/
theorem minLength_le_of_opening? {line : List Char} {f : Fence} (h : opening? line = some f) :
    minLength ≤ f.length := (opening?_eq_some_iff.mp h).1

/-- A run of fence characters that is long enough opens a fence, blanks around it apart. -/
theorem opening?_of_trim_eq {line : List Char} {mark : FenceMark} {n : Nat} (hn : minLength ≤ n)
    (h : Text.trim line = List.replicate n mark.char) : opening? line = some ⟨mark, n⟩ := by
  obtain ⟨blanks, hcut, hblanks, -⟩ := Text.exists_trimEnd (Text.trimStart line)
  refine opening?_eq_some_iff.mpr ⟨hn, blanks, ?_, ?_⟩
  · rwa [← Text.trim, h] at hcut
  · intro hhead
    have hblank := hblanks _ (List.mem_of_head? hhead)
    rw [mark.isBlank_char] at hblank
    cases hblank

/-! ## Closing fences -/

/-- A line closes a fence when it is a run that is long enough, blanks around it apart. -/
theorem closedBy_eq_true_iff {f : Fence} {line : List Char} :
    f.closedBy line = true ↔
      ∃ n, f.length ≤ n ∧ Text.trim line = List.replicate n f.mark.char := by
  rw [closedBy, Bool.and_eq_true, decide_eq_true_eq]
  constructor
  · rintro ⟨hle, hblank⟩
    obtain ⟨n, hn⟩ : ∃ n, runLength f.mark.char (Text.trim line) = n := ⟨_, rfl⟩
    obtain ⟨rest, htrim, -⟩ := runLength_eq_iff.mp hn
    rw [hn] at hle hblank
    refine ⟨n, hle, ?_⟩
    -- what is trimmed does not end in a blank, so nothing follows the run
    rcases List.eq_nil_or_concat rest with rfl | ⟨init, c, rfl⟩
    · rw [htrim, List.append_nil]
    · rw [List.concat_eq_append, ← List.append_assoc] at htrim
      obtain ⟨-, -, -, hlast⟩ := Text.exists_trimEnd (Text.trimStart line)
      have hc : Text.isBlank c = false := by
        apply hlast
        rw [← Text.trim, htrim, List.getLast?_concat]
      rw [htrim, List.append_assoc, List.drop_left' List.length_replicate] at hblank
      simp [hc] at hblank
  · rintro ⟨n, hle, htrim⟩
    have hrun : runLength f.mark.char (List.replicate n f.mark.char ++ []) = n :=
      runLength_replicate_append f.mark.char n nofun
    rw [List.append_nil] at hrun
    rw [htrim, hrun, List.drop_of_length_le (by simp)]
    exact ⟨hle, rfl⟩

/-- A run that is long enough closes the fence, with blanks around it. -/
theorem closedBy_replicate (f : Fence) {blanks after : List Char} {marks : Nat}
    (hblanks : ∀ c ∈ blanks, Text.isBlank c = true) (hafter : ∀ c ∈ after, Text.isBlank c = true)
    (hpos : 0 < marks) (hle : f.length ≤ marks) :
    f.closedBy (blanks ++ (List.replicate marks f.mark.char ++ after)) = true := by
  refine closedBy_eq_true_iff.mpr ⟨marks, hle, ?_⟩
  rw [Text.trim, Text.trimStart_append hblanks, Text.trimEnd_append_blanks _ hafter,
    Text.trimEnd_of_getLast?]
  · intro c hc
    rw [List.eq_of_mem_replicate (List.mem_of_getLast? hc)]
    exact f.mark.isBlank_char
  · intro c hc
    rw [head?_replicate_append _ hpos] at hc
    exact Option.some.inj hc ▸ f.mark.isBlank_char

/-- What closes a fence starts with its character. -/
theorem head?_trimStart_of_closedBy {f : Fence} {line : List Char} (hpos : 0 < f.length)
    (h : f.closedBy line = true) : (Text.trimStart line).head? = some f.mark.char := by
  obtain ⟨n, hle, htrim⟩ := closedBy_eq_true_iff.mp h
  obtain ⟨more, hmore⟩ : Text.trim line <+: Text.trimStart line := Text.trimEnd_prefix _
  rw [← hmore, htrim, head?_replicate_append _ (Nat.lt_of_lt_of_le hpos hle)]

/-- A line that is a run of one kind closes no fence of the other kind. -/
theorem closedBy_eq_false {g : Fence} {line : List Char} {mark : FenceMark} {n : Nat} (hn : 0 < n)
    (h : Text.trim line = List.replicate n mark.char) (hmark : g.mark ≠ mark) :
    g.closedBy line = false := by
  refine Bool.eq_false_iff.mpr fun hcloses ↦ hmark ?_
  obtain ⟨m, -, htrim⟩ := closedBy_eq_true_iff.mp hcloses
  have hmem : mark.char ∈ List.replicate m g.mark.char := by
    rw [← htrim, h]
    exact List.mem_replicate.mpr ⟨Nat.ne_of_gt hn, rfl⟩
  exact FenceMark.char_injective (List.eq_of_mem_replicate hmem).symm

/-- The fence that a line opens is the run at its start. Another line closes it when it is a run at
least as long; such a line closes the shorter fences of the kind and none of the other kind, and
opens the fence of its own length. -/
theorem runs_of_opening? {opening : List Char} {f : Fence} (h : opening? opening = some f) :
    minLength ≤ f.length ∧ BeginsWithRun f.mark.char f.length (Text.trimStart opening) ∧
      ∀ line,
        (f.closedBy line = true ↔
          ∃ n, f.length ≤ n ∧ Text.trim line = List.replicate n f.mark.char) ∧
        (f.closedBy line = true →
          (∀ g : Fence, g.mark = f.mark → g.length ≤ f.length → g.closedBy line = true) ∧
          (∀ g : Fence, g.mark ≠ f.mark → g.closedBy line = false) ∧
          ∃ n, f.length ≤ n ∧ Text.trim line = List.replicate n f.mark.char ∧
            opening? line = some ⟨f.mark, n⟩) := by
  obtain ⟨hlength, hbegins⟩ := opening?_eq_some_iff.mp h
  refine ⟨hlength, hbegins, fun line ↦ ⟨closedBy_eq_true_iff, fun hcloses ↦ ?_⟩⟩
  obtain ⟨n, hle, htrim⟩ := closedBy_eq_true_iff.mp hcloses
  have hn : minLength ≤ n := Nat.le_trans hlength hle
  refine ⟨?_, ?_, n, hle, htrim, opening?_of_trim_eq hn htrim⟩
  · intro g hmark hshorter
    exact closedBy_eq_true_iff.mpr ⟨n, Nat.le_trans hshorter hle, hmark ▸ htrim⟩
  · intro g hmark
    exact closedBy_eq_false (Nat.lt_of_lt_of_le (by decide) hn) htrim hmark

/-- A fence of four tildes behind blanks, and a line that closes it. -/
theorem runs_of_opening?_tildes :
    opening? "  ~~~~ rust".toList = some ⟨.tilde, 4⟩ ∧
      (⟨.tilde, 4⟩ : Fence).closedBy "\t~~~~~\u00a0".toList = true ∧
      (⟨.tilde, 3⟩ : Fence).closedBy "\t~~~~~\u00a0".toList = true ∧
      (⟨.backtick, 3⟩ : Fence).closedBy "\t~~~~~\u00a0".toList = false ∧
      ∃ n, 4 ≤ n ∧ Text.trim "\t~~~~~\u00a0".toList = List.replicate n '~' ∧
        opening? "\t~~~~~\u00a0".toList = some ⟨.tilde, n⟩ := by
  have hopens : opening? "  ~~~~ rust".toList = some ⟨.tilde, 4⟩ := by decide
  have hcloses : (⟨.tilde, 4⟩ : Fence).closedBy "\t~~~~~\u00a0".toList = true := by decide
  obtain ⟨-, -, hlines⟩ := runs_of_opening? hopens
  obtain ⟨hshorter, hother, hrun⟩ := (hlines "\t~~~~~\u00a0".toList).2 hcloses
  exact ⟨hopens, hcloses, hshorter _ rfl (by decide), hother _ (by decide), hrun⟩

end Fence

end FencedCode
