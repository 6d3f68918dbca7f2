import FencedCode.Text.Bytes

/-!
# Byte offsets between characters

A byte offset between two characters of a text divides it into what stands before and what stands
after. Cutting, slicing and replacing at such offsets is cutting, slicing and replacing of the list
of characters.
-/

namespace FencedCode.Text

/-- A text with the bytes from `start` up to `stop` replaced by another text. -/
def replaceBytes (start stop : Nat) (new cs : List Char) : List Char :=
  takeBytes start cs ++ new ++ dropBytes stop cs

/-- Whether a byte offset lies between two characters of a text, or at one of its ends. -/
def IsBoundary (cs : List Char) (n : Nat) : Prop := ∃ before after, cs = before ++ after ∧
  byteLength before = n

/-- A boundary lies within the text. -/
theorem IsBoundary.le {cs : List Char} {n : Nat} (h : IsBoundary cs n) : n ≤ byteLength cs := by
  obtain ⟨before, after, rfl, rfl⟩ := h
  rw [byteLength_append]
  omega

/-- Whether the bytes from `start` up to `stop` of a text are those of some of its characters. -/
structure IsRange (cs : List Char) (start stop : Nat) : Prop where
  le : start ≤ stop
  isBoundary_start : IsBoundary cs start
  isBoundary_stop : IsBoundary cs stop

/-- Only the empty text has no bytes. -/
theorem byteLength_eq_zero {cs : List Char} : byteLength cs = 0 ↔ cs = [] := by
  cases cs with
  | nil => simp
  | cons c cs =>
    have hpos := c.utf8Size_pos
    simp only [byteLength_cons, reduceCtorEq, iff_false]
    omega

/-- A character takes at least one byte. -/
theorem length_le_byteLength (cs : List Char) : cs.length ≤ byteLength cs := by
  induction cs with
  | nil => simp
  | cons c cs ih =>
    have hpos := c.utf8Size_pos
    simp only [List.length_cons, byteLength_cons]
    omega

/-- A leading part of a text has no more bytes than the text. -/
theorem byteLength_le_of_prefix {before cs : List Char} (h : before <+: cs) :
    byteLength before ≤ byteLength cs := by
  obtain ⟨after, rfl⟩ := h
  rw [byteLength_append]
  exact Nat.le_add_right _ _

/-- No bytes hold no characters. -/
@[simp] theorem takeBytes_zero (cs : List Char) : takeBytes 0 cs = [] := by
  cases cs with
  | nil => rfl
  | cons c cs =>
    have hpos := c.utf8Size_pos
    simp only [takeBytes, show ¬c.utf8Size ≤ 0 by omega, if_false]

/-- Without its first no bytes a text is whole. -/
@[simp] theorem dropBytes_zero (cs : List Char) : dropBytes 0 cs = cs := by
  cases cs with
  | nil => rfl
  | cons c cs =>
    have hpos := c.utf8Size_pos
    simp only [dropBytes, show ¬c.utf8Size ≤ 0 by omega, if_false]

/-- The bytes of a leading part hold that part. -/
theorem takeBytes_byteLength_append (before after : List Char) :
    takeBytes (byteLength before) (before ++ after) = before := by
  induction before with
  | nil => simp
  | cons c cs ih =>
    simp only [List.cons_append, byteLength_cons, takeBytes, Nat.le_add_right, if_true,
      Nat.add_sub_cancel_left, ih]

private theorem dropBytes_byteLength_append (before after : List Char) :
    dropBytes (byteLength before) (before ++ after) = after := by
  induction before with
  | nil => simp
  | cons c cs ih =>
    simp only [List.cons_append, byteLength_cons, dropBytes, Nat.le_add_right, if_true,
      Nat.add_sub_cancel_left, ih]

/-- The slice between two places of a text is what stands between them. -/
theorem slice_append (before mid after : List Char) :
    slice (byteLength before) (byteLength (before ++ mid)) (before ++ mid ++ after) = mid := by
  rw [slice, List.append_assoc, dropBytes_byteLength_append, byteLength_append,
    Nat.add_sub_cancel_left, takeBytes_byteLength_append]

/-- An empty slice holds no characters. -/
@[simp] theorem slice_self (n : Nat) (cs : List Char) : slice n n cs = [] := by
  rw [slice, Nat.sub_self, takeBytes_zero]

/-- Replacing between two places of a text replaces what stands between them. -/
theorem replaceBytes_append (before mid new after : List Char) :
    replaceBytes (byteLength before) (byteLength (before ++ mid)) new (before ++ mid ++ after) =
      before ++ new ++ after := by
  rw [replaceBytes, dropBytes_byteLength_append, List.append_assoc before mid,
    takeBytes_byteLength_append]

private theorem isBoundary_iff {cs : List Char} {n : Nat} :
    IsBoundary cs n ↔ byteLength (takeBytes n cs) = n := by
  constructor
  · rintro ⟨before, after, rfl, rfl⟩
    rw [takeBytes_byteLength_append]
  · intro h
    exact ⟨_, _, (takeBytes_append_dropBytes n cs).symm, h⟩

instance (cs : List Char) (n : Nat) : Decidable (IsBoundary cs n) :=
  decidable_of_iff _ isBoundary_iff.symm

instance (cs : List Char) (start stop : Nat) : Decidable (IsRange cs start stop) :=
  decidable_of_iff (start ≤ stop ∧ IsBoundary cs start ∧ IsBoundary cs stop)
    ⟨fun ⟨hle, hstart, hstop⟩ ↦ ⟨hle, hstart, hstop⟩,
      fun ⟨hle, hstart, hstop⟩ ↦ ⟨hle, hstart, hstop⟩⟩

/-- Of two leading parts of a text, the one with no more bytes is a leading part of the other. -/
theorem prefix_of_byteLength_le {before₁ before₂ after₁ after₂ : List Char}
    (h : before₁ ++ after₁ = before₂ ++ after₂) (hle : byteLength before₁ ≤ byteLength before₂) :
    before₁ <+: before₂ := by
  rcases List.append_eq_append_iff.mp h with ⟨mid, rfl, -⟩ | ⟨mid, rfl, -⟩
  · exact List.prefix_append _ _
  · rw [byteLength_append] at hle
    have hmid : mid = [] := byteLength_eq_zero.mp (by omega)
    exact ⟨[], by simp [hmid]⟩

/-- Leading parts of a text with as many bytes are one. -/
theorem eq_of_byteLength_eq {before₁ before₂ after₁ after₂ : List Char}
    (h : before₁ ++ after₁ = before₂ ++ after₂) (hbytes : byteLength before₁ = byteLength before₂) :
    before₁ = before₂ := by
  have htake := takeBytes_byteLength_append before₁ after₁
  rw [h, hbytes, takeBytes_byteLength_append] at htake
  exact htake.symm

/-- The slice between two leading parts of a text makes the shorter one into the longer one. -/
theorem append_slice {cs before₁ before₂ : List Char} (h₁ : before₁ <+: cs) (h₂ : before₂ <+: cs)
    (hle : byteLength before₁ ≤ byteLength before₂) :
    before₂ = before₁ ++ slice (byteLength before₁) (byteLength before₂) cs := by
  obtain ⟨after₁, h₁⟩ := h₁
  obtain ⟨after₂, h₂⟩ := h₂
  obtain ⟨mid, rfl⟩ := prefix_of_byteLength_le (h₁.trans h₂.symm) hle
  rw [← h₂, slice_append]

end FencedCode.Text
