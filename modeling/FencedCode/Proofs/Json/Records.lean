import FencedCode.Json.Record
import FencedCode.Proofs.Json.Values
import Mathlib.Data.List.Forall2
import Mathlib.Data.List.Nodup

/-!
# Records that were written

The members of a record are looked up by their names, which differ, so that each is found however
many of the optional ones stand beside it. An array is read as the list of what its items are read
as, or not at all.
-/

namespace FencedCode.Json

variable {α β : Type}

/-! ## Members -/

private theorem lookup_member (name key : String) (v : Json) (ms : List (List Char × Json)) :
    (member name v :: ms).lookup key.toList =
      if key = name then some v else ms.lookup key.toList := by
  rw [member, List.lookup_cons]
  by_cases h : key = name
  · simp [h]
  · simp [h, beq_eq_false_iff_ne.mpr (mt String.toList_inj.mp h)]

/-- A required member is the first of its name. -/
@[simp] theorem required?_member (read : Json → Option α) (name key : String) (v : Json)
    (ms : List (List Char × Json)) : required? read (member name v :: ms) key =
      if key = name then read v else required? read ms key := by
  rw [required?, lookup_member, apply_ite (Option.bind · read), Option.bind_some, ← required?]

/-- A member that is not there has its default. -/
@[simp] theorem defaulted?_nil (read : Json → Option α) (default : α) (key : String) :
    defaulted? read default [] key = some default := rfl

/-- A member with a default is the first of its name. -/
@[simp] theorem defaulted?_member (read : Json → Option α) (default : α) (name key : String)
    (v : Json) (ms : List (List Char × Json)) : defaulted? read default (member name v :: ms) key =
      if key = name then read v else defaulted? read default ms key := by
  rw [defaulted?, lookup_member]
  by_cases h : key = name
  · rw [if_pos h, if_pos h]
  · rw [if_neg h, if_neg h, ← defaulted?]

/-- An optional member at the front is read where it was written. -/
@[simp] theorem defaulted?_optional (read : Json → Option α) (default : α) (name key : String)
    (write : β → Json) (o : Option β) (ms : List (List Char × Json)) :
    defaulted? read default (optional name write o ++ ms) key =
      if key = name then o.elim (defaulted? read default ms key) fun b ↦ read (write b)
      else defaulted? read default ms key := by
  cases o with
  | none => exact (ite_self _).symm
  | some b => exact defaulted?_member read default name key (write b) ms

/-- An optional member at the end is read where it was written, else it has its default. -/
@[simp] theorem defaulted?_optional_last (read : Json → Option α) (default : α)
    (name key : String) (write : β → Json) (o : Option β) :
    defaulted? read default (optional name write o) key =
      if key = name then o.elim (some default) fun b ↦ read (write b) else some default := by
  simpa using defaulted?_optional read default name key write o []

/-- The name of an optional member stands before the others or is missing. -/
theorem map_fst_optional_append_sublist (name : String) (write : α → Json) (o : Option α)
    {ms : List (List Char × Json)} {names : List (List Char)}
    (h : (ms.map Prod.fst).Sublist names) :
    ((optional name write o ++ ms).map Prod.fst).Sublist (name.toList :: names) := by
  cases o with
  | none => exact h.cons _
  | some a => exact h.cons_cons _

/-- An optional member has its own name. -/
theorem map_fst_optional_sublist (name : String) (write : α → Json) (o : Option α) :
    ((optional name write o).map Prod.fst).Sublist [name.toList] := by
  rw [← List.append_nil (optional name write o)]
  exact map_fst_optional_append_sublist name write o (List.nil_sublist [])

/-- An optional member is plain where its written value is. -/
theorem plain_of_mem_optional {name : String} {write : α → Json} {o : Option α}
    (h : ∀ a, (write a).Plain) {m : List Char × Json} (hm : m ∈ optional name write o) :
    m.2.Plain := by
  cases o with
  | none => cases hm
  | some a =>
    rw [List.mem_singleton.mp hm]
    exact h a

/-- The members of a record are found where each has a name of its own. -/
theorem record?_object {names : List (List Char)} {ms : List (List Char × Json)}
    (hnames : names.Nodup) (h : (ms.map Prod.fst).Sublist names) :
    record? names (.object ms) = some ms := by
  refine if_pos (List.all_eq_true.mpr fun k _ ↦ decide_eq_true ?_)
  calc
    (ms.filter (·.1 == k)).length = (ms.map Prod.fst).count k := by
      rw [List.count, List.countP_map, List.countP_eq_length_filter]
      rfl
    _ ≤ 1 := List.nodup_iff_count_le_one.mp (h.nodup hnames) k

/-! ## Values -/

/-- A string is read back. -/
theorem string?_ofString (s : String) : string? (.ofString s) = some s := by
  rw [ofString, string?, String.ofList_toList]

/-- A number in the range of a word is read back. -/
theorem word?_natural {n : Nat} (h : n < UInt64.size) : word? (.natural n) = some n := if_pos h

/-- A value that is not null is read as it would be where null is not allowed. -/
theorem nullable?_of_eq_some {read : Json → Option α} {v : Json} {a : α} (hnull : v ≠ .null)
    (h : read v = some a) : nullable? read v = some (some a) := by
  rw [nullable?.eq_2 read v hnull, h, Option.map_some]

/-- What was written only where it is there is read as it was. -/
theorem elim_nullable? {read : Json → Option α} {write : α → Json} {o : Option α}
    (h : ∀ a ∈ o, write a ≠ .null ∧ read (write a) = some a) :
    (o.elim (some none) fun a ↦ nullable? read (write a)) = some o := by
  cases o with
  | none => rfl
  | some a => exact nullable?_of_eq_some (h a rfl).1 (h a rfl).2

/-! ## Arrays -/

private theorem mapM_eq_some_iff {f : α → Option β} {as : List α} {bs : List β} :
    as.mapM f = some bs ↔ List.Forall₂ (fun a b ↦ f a = some b) as bs := by
  induction as generalizing bs with
  | nil => simp [eq_comm]
  | cons a as ih =>
    rw [List.mapM_cons, List.forall₂_cons_left_iff]
    simp only [← ih]
    cases f a with
    | none => simp
    | some b => cases as.mapM f with
      | none => simp
      | some bs' => simp [eq_comm]

private theorem mapM_eq_none_iff {f : α → Option β} {as : List α} :
    as.mapM f = none ↔ ∃ a ∈ as, f a = none := by
  induction as with
  | nil => simp
  | cons a as ih =>
    rw [List.mapM_cons, List.exists_mem_cons_iff, ← ih]
    cases f a with
    | none => simp
    | some b => cases as.mapM f with
      | none => simp
      | some bs => simp

/-- An array is read as the list of what its items are read as, in order, or not at all. -/
theorem list?_eq_some_iff {read : Json → Option α} {v : Json} {as : List α} :
    list? read v = some as ↔
      ∃ vs, v = .array vs ∧ List.Forall₂ (fun v a ↦ read v = some a) vs as := by
  cases v with
  | array vs => simp [list?, mapM_eq_some_iff]
  | _ => simp [list?]

/-- And so is an array of arrays. -/
theorem list?_list?_eq_some_iff {read : Json → Option α} {v : Json} {rows : List (List α)} :
    list? (list? read) v = some rows ↔ ∃ vss : List (List Json), v = .array (vss.map .array) ∧
      List.Forall₂ (List.Forall₂ fun v a ↦ read v = some a) vss rows := by
  constructor
  · intro h
    obtain ⟨vs, rfl, hvs⟩ := list?_eq_some_iff.mp h
    suffices h : ∃ vss : List (List Json), vs = vss.map .array ∧
        List.Forall₂ (List.Forall₂ fun v a ↦ read v = some a) vss rows by
      obtain ⟨vss, rfl, hvss⟩ := h
      exact ⟨vss, rfl, hvss⟩
    clear h
    induction hvs with
    | nil => exact ⟨[], rfl, .nil⟩
    | cons hread _ ih =>
      obtain ⟨row, rfl, hrow⟩ := list?_eq_some_iff.mp hread
      obtain ⟨vss, rfl, hvss⟩ := ih
      exact ⟨row :: vss, rfl, .cons hrow hvss⟩
  · rintro ⟨vss, rfl, hvss⟩
    refine list?_eq_some_iff.mpr ⟨_, rfl, List.forall₂_map_left_iff.mpr (hvss.imp ?_)⟩
    exact fun row _ hrow ↦ list?_eq_some_iff.mpr ⟨row, rfl, hrow⟩

/-- One item that cannot be read spoils the array, and nothing else does. -/
theorem list?_array_eq_none_iff {read : Json → Option α} {vs : List Json} :
    list? read (.array vs) = none ↔ ∃ v ∈ vs, read v = none := mapM_eq_none_iff

/-- Items that were written are read as what they were written for. -/
theorem list?_map {read : Json → Option α} {write : α → Json} {as : List α}
    (h : ∀ a ∈ as, read (write a) = some a) : list? read (.array (as.map write)) = some as := by
  refine list?_eq_some_iff.mpr ⟨_, rfl, ?_⟩
  rw [List.forall₂_map_left_iff, List.forall₂_same]
  exact h

end FencedCode.Json
