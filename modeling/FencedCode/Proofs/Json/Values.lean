import FencedCode.Proofs.Json.Tokens
import Mathlib.Data.List.DropRight

/-!
# Reading what was written

A value that is laid out with one item or member a line is read as itself, whatever follows it, as
long as that does not go on with a number. The reader needs no more steps than the value has
characters.
-/

namespace FencedCode.Json

/-- Whether a value has a text of its own: its numbers are natural and its strings hold text. -/
inductive Plain : Json → Prop
  | null : Plain .null
  | bool (b : Bool) : Plain (.bool b)
  | natural (n : Nat) : Plain (.natural n)
  | string (s : List Char) : Plain (.string s)
  | array {items : List Json} (h : ∀ v ∈ items, Plain v) : Plain (.array items)
  | object {members : List (List Char × Json)} (h : ∀ m ∈ members, Plain m.2) :
    Plain (.object members)

/-- Whether a value is read where it is written, at any level of a layout. -/
def ReadsBack (v : Json) : Prop :=
  ∀ level fuel rest, (v.writeAt level).length ≤ fuel → EndsNumber rest →
    readValue fuel (v.writeAt level ++ rest) = some (v, rest)

/-! ## Blanks -/

private theorem isSpace_iff {c : Char} :
    isSpace c = true ↔ c = ' ' ∨ c = '\n' ∨ c = '\t' ∨ c = '\r' := by
  simp [isSpace, or_assoc]

private theorem endsNumber_cons {c : Char} (h : isSpace c = true ∨ c = ',' ∨ c = ']' ∨ c = '\x7d')
    (rest : List Char) : EndsNumber (c :: rest) := by
  intro d hd
  obtain rfl := Option.some.inj hd
  rcases h with h | rfl | rfl | rfl
  · rcases isSpace_iff.mp h with rfl | rfl | rfl | rfl <;> decide
  all_goals decide

private theorem endsNumber_append {blanks rest : List Char} (h : ∀ c ∈ blanks, isSpace c = true)
    (hrest : EndsNumber rest) : EndsNumber (blanks ++ rest) := by
  cases blanks with
  | nil => exact hrest
  | cons c blanks => exact endsNumber_cons (.inl (h c List.mem_cons_self)) _

private theorem isSpace_of_mem_newline {level : Nat} {c : Char} (h : c ∈ newline level) :
    isSpace c = true := by
  rcases List.mem_cons.mp h with rfl | h
  · rfl
  · rw [List.eq_of_mem_replicate h]
    rfl

private theorem skipSpace_cons {c : Char} (h : isSpace c = false) (cs : List Char) :
    skipSpace (c :: cs) = c :: cs := by
  rw [skipSpace, List.dropWhile_cons_of_neg (by simp [h])]

private theorem skipSpace_append {blanks : List Char} (h : ∀ c ∈ blanks, isSpace c = true)
    (cs : List Char) : skipSpace (blanks ++ cs) = skipSpace cs :=
  List.dropWhile_append_of_pos h

private theorem skipSpace_newline (level : Nat) (cs : List Char) :
    skipSpace (newline level ++ cs) = skipSpace cs :=
  skipSpace_append (fun _ ↦ isSpace_of_mem_newline) cs

private theorem skipSpace_skipSpace (cs : List Char) : skipSpace (skipSpace cs) = skipSpace cs :=
  List.dropWhile_idempotent isSpace cs

/-- Leading blanks do not matter to the readers. -/
private theorem readValue_skipSpace (fuel : Nat) (cs : List Char) :
    readValue fuel (skipSpace cs) = readValue fuel cs := by
  cases fuel with
  | zero => rfl
  | succ fuel => rw [readValue, readValue, skipSpace_skipSpace]

private theorem readItems_skipSpace (fuel : Nat) (cs : List Char) :
    readItems fuel (skipSpace cs) = readItems fuel cs := by
  cases fuel with
  | zero => rfl
  | succ fuel => rw [readItems, readItems, readValue_skipSpace]

private theorem readMembers_skipSpace (fuel : Nat) (cs : List Char) :
    readMembers fuel (skipSpace cs) = readMembers fuel cs := by
  cases fuel with
  | zero => rfl
  | succ fuel => rw [readMembers, readMembers, skipSpace_skipSpace]

/-! ## Atoms -/

private theorem ne_of_isDigit {c d : Char} (hd : d.isDigit = true) (hc : c.isDigit = false) :
    d ≠ c := by
  rintro rfl
  rw [hd] at hc
  cases hc

private theorem isSpace_of_isDigit {d : Char} (hd : d.isDigit = true) : isSpace d = false := by
  refine Bool.eq_false_iff.mpr fun hspace ↦ ?_
  rcases isSpace_iff.mp hspace with rfl | rfl | rfl | rfl <;> cases hd

/-- What has no parts is read back where the reader finds it at the start of a text. -/
theorem readsBack_of_atom {v : Json} (hpos : 0 < (writeAtom v).length)
    (hwritten : ∀ level, v.writeAt level = writeAtom v)
    (hread : ∀ fuel rest, EndsNumber rest →
      readValue (fuel + 1) (writeAtom v ++ rest) = some (v, rest)) : v.ReadsBack := by
  intro level fuel rest hfuel hrest
  rw [hwritten] at hfuel ⊢
  obtain ⟨k, rfl⟩ := Nat.exists_eq_add_of_le' (Nat.le_trans hpos hfuel)
  exact hread k rest hrest

private theorem readsBack_null : ReadsBack .null :=
  readsBack_of_atom (by decide) (fun _ ↦ rfl) fun _ _ _ ↦ rfl

private theorem readsBack_bool (b : Bool) : ReadsBack (.bool b) := by
  cases b with
  | true => exact readsBack_of_atom (by decide) (fun _ ↦ rfl) fun _ _ _ ↦ rfl
  | false => exact readsBack_of_atom (by decide) (fun _ ↦ rfl) fun _ _ _ ↦ rfl

private theorem readsBack_natural (n : Nat) : ReadsBack (.natural n) := by
  refine readsBack_of_atom (List.length_pos_of_ne_nil Nat.toDigits_ne_nil) (fun _ ↦ rfl)
    fun fuel rest hrest ↦ ?_
  have hread := readNumber_digits n hrest
  obtain ⟨d, ds, hd, hdigit⟩ := exists_digits_eq n
  have hne {c : Char} : c.isDigit = false → d ≠ c := ne_of_isDigit hdigit
  rw [hd, List.cons_append] at hread
  rw [writeAtom, hd, List.cons_append, readValue, skipSpace_cons (isSpace_of_isDigit hdigit)]
  simp only [hne (c := '\x7b') rfl, hne (c := '[') rfl, hne (c := '"') rfl, hne (c := 't') rfl,
    hne (c := 'f') rfl, hne (c := 'n') rfl, if_false, hread]

private theorem readsBack_string (s : List Char) : ReadsBack (.string s) := by
  refine readsBack_of_atom (Nat.succ_pos _) (fun _ ↦ rfl) fun fuel rest _ ↦ ?_
  rw [writeAtom, quote, List.cons_append, List.append_assoc, readValue, skipSpace_cons rfl]
  simp [readString_escaped]

/-! ## Items -/

/-- The text of a value starts with a character that is no blank and closes no array. -/
private theorem Plain.exists_writeAt_eq {v : Json} (h : v.Plain) (level : Nat) :
    ∃ c cs, v.writeAt level = c :: cs ∧ isSpace c = false ∧ c ≠ ']' := by
  cases h with
  | null => exact ⟨'n', _, rfl, rfl, by decide⟩
  | bool b =>
    cases b with
    | true => exact ⟨'t', _, rfl, rfl, by decide⟩
    | false => exact ⟨'f', _, rfl, rfl, by decide⟩
  | natural n =>
    obtain ⟨d, ds, hd, hdigit⟩ := exists_digits_eq n
    exact ⟨d, ds, hd, isSpace_of_isDigit hdigit, ne_of_isDigit hdigit rfl⟩
  | string s => exact ⟨'"', _, rfl, rfl, by decide⟩
  | @array items _ =>
    cases items with
    | nil => exact ⟨'[', _, rfl, rfl, by decide⟩
    | cons v vs => exact ⟨'[', _, rfl, rfl, by decide⟩
  | @object ms _ =>
    cases ms with
    | nil => exact ⟨'\x7b', _, rfl, rfl, by decide⟩
    | cons m ms => exact ⟨'\x7b', _, rfl, rfl, by decide⟩

/-- Values at a level with commas between them, each between the same blanks: the items of an array,
or texts that were put together. -/
def joined (lead trail : List Char) (level : Nat) (vs : List Json) : List Char :=
  [','].intercalate (vs.map fun v ↦ lead ++ (v.writeAt level ++ trail))

section Joined

variable {lead trail closing : List Char}

/-- A single value is joined without a separator. -/
theorem joined_singleton (lead trail : List Char) (level : Nat) (v : Json) :
    joined lead trail level [v] = lead ++ (v.writeAt level ++ trail) := List.intercalate_singleton

private theorem joined_cons_cons (lead trail : List Char) (level : Nat) (v w : Json)
    (ws : List Json) :
    joined lead trail level (v :: w :: ws) =
      lead ++ (v.writeAt level ++ (trail ++ ',' :: joined lead trail level (w :: ws))) := by
  simp [joined]

private theorem writeItemsAt_eq (level : Nat) (vs : List Json) :
    writeItemsAt level vs = joined (newline level) [] level vs := by
  induction vs with
  | nil => rfl
  | cons v vs ih =>
    cases vs with
    | nil =>
      rw [joined_singleton, List.append_nil]
      rfl
    | cons w ws =>
      rw [joined_cons_cons, ← ih, List.nil_append, ← List.append_assoc]
      rfl

/-- The first thing inside an array is its first item. -/
private theorem exists_skipSpace_joined (hlead : ∀ c ∈ lead, isSpace c = true) {v : Json} (hv : v.Plain)
    (vs : List Json) (level : Nat) (trail after : List Char) :
    ∃ c cs, skipSpace (joined lead trail level (v :: vs) ++ after) = c :: cs ∧ c ≠ ']' := by
  obtain ⟨more, hmore⟩ : ∃ more, joined lead trail level (v :: vs) =
      lead ++ (v.writeAt level ++ more) := by
    cases vs with
    | nil => exact ⟨trail, joined_singleton lead trail level v⟩
    | cons w ws => exact ⟨_, joined_cons_cons lead trail level v w ws⟩
  obtain ⟨c, cs, hwritten, hspace, hbracket⟩ := hv.exists_writeAt_eq level
  refine ⟨c, cs ++ more ++ after, ?_, hbracket⟩
  rw [hmore, List.append_assoc, skipSpace_append hlead, hwritten, List.cons_append,
    List.cons_append, skipSpace_cons hspace]

/-- An item is followed by a comma and the other items, or by the bracket that ends them. -/
private theorem readItems_append {v : Json} (hv : v.ReadsBack) (hlead : ∀ c ∈ lead, isSpace c = true)
    {level fuel : Nat} {after : List Char} (hfuel : (v.writeAt level).length ≤ fuel)
    (hafter : EndsNumber after) :
    readItems (fuel + 1) (lead ++ (v.writeAt level ++ after)) =
      match skipSpace after with
      | ',' :: cs => (readItems fuel cs).map fun (vs, rest) ↦ (v :: vs, rest)
      | ']' :: rest => some ([v], rest)
      | _ => none := by
  rw [← readItems_skipSpace, skipSpace_append hlead, readItems_skipSpace, readItems,
    hv level fuel after hfuel hafter]
  rfl

/-- Items are read up to the bracket behind them. -/
private theorem readItems_joined (hlead : ∀ c ∈ lead, isSpace c = true)
    (htrail : ∀ c ∈ trail, isSpace c = true) (hclosing : ∀ c ∈ closing, isSpace c = true)
    {level : Nat} {vs : List Json} (hne : vs ≠ []) (hvs : ∀ v ∈ vs, v.ReadsBack) {fuel : Nat}
    (hfuel : (joined lead trail level vs).length < fuel) (rest : List Char) :
    readItems fuel (joined lead trail level vs ++ (closing ++ ']' :: rest)) = some (vs, rest) := by
  induction vs generalizing fuel with
  | nil => exact absurd rfl hne
  | cons v vs ih =>
    obtain ⟨hv, hrest⟩ := List.forall_mem_cons.mp hvs
    obtain ⟨k, rfl⟩ := Nat.exists_eq_add_of_le' (Nat.zero_lt_of_lt hfuel)
    cases vs with
    | nil =>
      have hends : EndsNumber (trail ++ (closing ++ ']' :: rest)) :=
        endsNumber_append htrail (endsNumber_append hclosing
          (endsNumber_cons (.inr (.inr (.inl rfl))) rest))
      rw [joined_singleton] at hfuel ⊢
      simp only [List.length_append] at hfuel
      rw [List.append_assoc, List.append_assoc, readItems_append hv hlead (by omega) hends,
        skipSpace_append htrail, skipSpace_append hclosing, skipSpace_cons rfl]
      rfl
    | cons w ws =>
      have hends (more : List Char) : EndsNumber (trail ++ ',' :: more) :=
        endsNumber_append htrail (endsNumber_cons (.inr (.inl rfl)) more)
      rw [joined_cons_cons] at hfuel ⊢
      simp only [List.length_append, List.length_cons] at hfuel
      have htail := ih (List.cons_ne_nil w ws) hrest
        (show (joined lead trail level (w :: ws)).length < k by omega)
      rw [List.append_assoc, List.append_assoc, List.append_assoc, List.cons_append,
        readItems_append hv hlead (by omega) (hends _), skipSpace_append htrail,
        skipSpace_cons rfl]
      simp only [htail, Option.map_some]

/-- A bracket that the reader finds no other one behind opens an array with items. -/
private theorem readValue_bracket {fuel : Nat} {cs ds : List Char} {c : Char}
    (h : skipSpace cs = c :: ds) (hc : c ≠ ']') :
    readValue (fuel + 1) ('[' :: cs) =
      (readItems fuel cs).map fun (vs, rest) ↦ (.array vs, rest) := by
  rw [readValue, skipSpace_cons rfl]
  simp only [show ('[' : Char) ≠ '\x7b' by decide, if_true, if_false, h]
  split
  · next heq => exact absurd (List.cons.inj heq).1 hc
  · rw [← h, readItems_skipSpace]

/-- Values between brackets are read as the array of these. -/
private theorem readValue_joined (hlead : ∀ c ∈ lead, isSpace c = true)
    (htrail : ∀ c ∈ trail, isSpace c = true) (hclosing : ∀ c ∈ closing, isSpace c = true)
    {level : Nat} {vs : List Json} (hne : vs ≠ []) (hplain : ∀ v ∈ vs, v.Plain)
    (hvs : ∀ v ∈ vs, v.ReadsBack) {fuel : Nat}
    (hfuel : (joined lead trail level vs).length < fuel) (rest : List Char) :
    readValue (fuel + 1) ('[' :: (joined lead trail level vs ++ (closing ++ ']' :: rest))) =
      some (.array vs, rest) := by
  obtain ⟨v, vs, rfl⟩ := List.exists_cons_of_ne_nil hne
  obtain ⟨c, cs, hhead, hbracket⟩ := exists_skipSpace_joined hlead
    (hplain v List.mem_cons_self) vs level trail (closing ++ ']' :: rest)
  rw [readValue_bracket hhead hbracket,
    readItems_joined hlead htrail hclosing hne hvs hfuel rest]
  rfl

end Joined

private theorem readsBack_array {items : List Json} (hplain : ∀ v ∈ items, v.Plain)
    (hitems : ∀ v ∈ items, v.ReadsBack) : ReadsBack (.array items) := by
  intro level fuel rest hfuel _
  cases items with
  | nil =>
    obtain ⟨k, rfl⟩ := Nat.exists_eq_add_of_le' (Nat.le_trans (by exact Nat.succ_pos _) hfuel)
    rfl
  | cons v vs =>
    have hwritten : writeAt level (.array (v :: vs)) =
      '[' :: (writeItemsAt (level + 1) (v :: vs) ++ newline level ++ [']']) := rfl
    rw [hwritten, writeItemsAt_eq] at hfuel ⊢
    simp only [List.length_append, List.length_cons] at hfuel
    obtain ⟨k, rfl⟩ := Nat.exists_eq_add_of_le' (show 1 ≤ fuel by omega)
    rw [List.cons_append, List.append_assoc, List.append_assoc, List.singleton_append]
    exact readValue_joined (fun _ ↦ isSpace_of_mem_newline) (List.forall_mem_nil _)
      (fun _ ↦ isSpace_of_mem_newline) (List.cons_ne_nil v vs) hplain hitems (by omega) rest

/-! ## Members -/

/-- A member is followed by a comma and the other members, or by the brace that ends them. -/
private theorem readMembers_newline {v : Json} (hv : v.ReadsBack) (name : List Char) {level fuel : Nat}
    {after : List Char} (hfuel : (v.writeAt level).length ≤ fuel) (hafter : EndsNumber after) :
    readMembers (fuel + 1)
        (newline level ++ (quote name ++ ':' :: ' ' :: (v.writeAt level ++ after))) =
      match skipSpace after with
      | ',' :: cs => (readMembers fuel cs).map fun (ms, rest) ↦ ((some name, v) :: ms, rest)
      | '\x7d' :: rest => some ([(some name, v)], rest)
      | _ => none := by
  have hblank (cs : List Char) : readValue fuel (' ' :: cs) = readValue fuel cs := by
    rw [← readValue_skipSpace, ← readValue_skipSpace fuel cs]
    rfl
  rw [readMembers, skipSpace_newline, quote, List.cons_append, skipSpace_cons rfl,
    List.append_assoc, List.singleton_append]
  simp only [readString_escaped, Option.bind_some,
    skipSpace_cons (show isSpace ':' = false from rfl), hblank]
  rw [hv level fuel after hfuel hafter]
  rfl

/-- The first thing inside an object is the name of its first member. -/
private theorem exists_skipSpace_writeMembersAt (level : Nat) (m : List Char × Json)
    (ms : List (List Char × Json)) (after : List Char) :
    ∃ ds, skipSpace (writeMembersAt level (m :: ms) ++ after) = '"' :: ds := by
  obtain ⟨more, hmore⟩ : ∃ more, writeMembersAt level (m :: ms) =
      newline level ++ (quote m.1 ++ more) := by
    cases ms with
    | nil => exact ⟨_, List.append_assoc _ _ _⟩
    | cons n ns => exact ⟨_, List.append_assoc _ _ _⟩
  rw [hmore, List.append_assoc, skipSpace_newline, quote, List.cons_append, List.cons_append,
    skipSpace_cons rfl]
  exact ⟨_, rfl⟩

/-- Members are read up to the brace below them. -/
private theorem readMembers_writeMembersAt (level : Nat) {ms : List (List Char × Json)} (hne : ms ≠ [])
    (hms : ∀ m ∈ ms, m.2.ReadsBack) {fuel : Nat} (hfuel : (writeMembersAt level ms).length ≤ fuel)
    (outer : Nat) (rest : List Char) :
    readMembers fuel (writeMembersAt level ms ++ (newline outer ++ '\x7d' :: rest)) =
      some (ms.map fun (k, v) ↦ (some k, v), rest) := by
  have hends (level : Nat) (cs : List Char) : EndsNumber (newline level ++ cs) :=
    endsNumber_cons (.inl rfl) _
  induction ms generalizing fuel with
  | nil => exact absurd rfl hne
  | cons m ms ih =>
    obtain ⟨name, v⟩ := m
    obtain ⟨(hv : v.ReadsBack), hrest⟩ := List.forall_mem_cons.mp hms
    cases ms with
    | nil =>
      have hwritten : writeMembersAt level [(name, v)] =
        newline level ++ quote name ++ ':' :: ' ' :: v.writeAt level := rfl
      rw [hwritten] at hfuel ⊢
      simp only [newline, List.length_append, List.length_cons] at hfuel
      obtain ⟨k, rfl⟩ := Nat.exists_eq_add_of_le' (show 1 ≤ fuel by omega)
      rw [List.append_assoc, List.append_assoc, List.cons_append, List.cons_append,
        readMembers_newline hv name (by omega) (hends outer _),
        skipSpace_newline, skipSpace_cons rfl]
      rfl
    | cons n ns =>
      have hwritten : writeMembersAt level ((name, v) :: n :: ns) =
        newline level ++ quote name ++ ':' :: ' ' :: (v.writeAt level ++
          ',' :: writeMembersAt level (n :: ns)) := rfl
      rw [hwritten] at hfuel ⊢
      simp only [newline, List.length_append, List.length_cons] at hfuel
      obtain ⟨k, rfl⟩ := Nat.exists_eq_add_of_le' (show 1 ≤ fuel by omega)
      have htail := ih (List.cons_ne_nil n ns) hrest
        (show (writeMembersAt level (n :: ns)).length ≤ k by omega)
      rw [List.append_assoc, List.append_assoc, List.cons_append, List.cons_append,
        List.append_assoc, List.cons_append,
        readMembers_newline hv name (by omega) (endsNumber_cons (.inr (.inl rfl)) _),
        skipSpace_cons rfl]
      simp only [htail, Option.map_some]
      rfl

private theorem objectOf_map (ms : List (List Char × Json)) :
    objectOf (ms.map fun (k, v) ↦ (some k, v)) = .object ms := by
  have hnone : (ms.map fun (k, v) ↦ (some k, v)).any (·.1.isNone) = false := by simp
  rw [objectOf, hnone, List.filterMap_map]
  exact congrArg Json.object (List.filterMap_some (l := ms))

/-- A brace before a quotation mark opens an object with members. -/
private theorem readValue_brace {fuel : Nat} {cs ds : List Char} (h : skipSpace cs = '"' :: ds) :
    readValue (fuel + 1) ('\x7b' :: cs) =
      (readMembers fuel cs).map fun (ms, rest) ↦ (objectOf ms, rest) := by
  rw [readValue, skipSpace_cons rfl]
  simp only [if_true, h, ← readMembers_skipSpace fuel cs]
  rfl

private theorem readsBack_object {members : List (List Char × Json)}
    (hmembers : ∀ m ∈ members, m.2.ReadsBack) : ReadsBack (.object members) := by
  intro level fuel rest hfuel _
  cases members with
  | nil =>
    obtain ⟨k, rfl⟩ := Nat.exists_eq_add_of_le' (Nat.le_trans (by exact Nat.succ_pos _) hfuel)
    rfl
  | cons m ms =>
    have hwritten : writeAt level (.object (m :: ms)) =
      '\x7b' :: (writeMembersAt (level + 1) (m :: ms) ++ newline level ++ ['\x7d']) := rfl
    rw [hwritten] at hfuel ⊢
    simp only [List.length_append, List.length_cons] at hfuel
    obtain ⟨k, rfl⟩ := Nat.exists_eq_add_of_le' (show 1 ≤ fuel by omega)
    have hread := readMembers_writeMembersAt (level + 1) (List.cons_ne_nil m ms) hmembers
      (show (writeMembersAt (level + 1) (m :: ms)).length ≤ k by omega) level rest
    obtain ⟨ds, hhead⟩ :=
      exists_skipSpace_writeMembersAt (level + 1) m ms (newline level ++ '\x7d' :: rest)
    rw [List.cons_append, List.append_assoc, List.append_assoc, List.singleton_append,
      readValue_brace hhead, hread]
    exact congrArg (fun v ↦ some (v, rest)) (objectOf_map (m :: ms))

/-! ## Values -/

/-- Every value that has a text of its own is read back from it. -/
theorem Plain.readsBack {v : Json} (h : v.Plain) : v.ReadsBack := by
  induction h with
  | null => exact readsBack_null
  | bool b => exact readsBack_bool b
  | natural n => exact readsBack_natural n
  | string s => exact readsBack_string s
  | array h ih => exact readsBack_array h ih
  | object _ ih => exact readsBack_object ih

/-- A text is read as the value that it was written for, blanks behind it apart. -/
theorem read?_pretty {v : Json} (h : v.Plain) {blanks : List Char}
    (hblanks : ∀ c ∈ blanks, isSpace c = true) : read? (v.pretty ++ blanks) = some v := by
  have hends : EndsNumber blanks := by
    rw [← List.append_nil blanks]
    exact endsNumber_append hblanks fun c hc ↦ nomatch hc
  have hskip : skipSpace blanks = [] := by
    rw [← List.append_nil blanks, skipSpace_append hblanks]
    rfl
  have hfuel : (v.writeAt 0).length ≤ (v.writeAt 0 ++ blanks).length + 1 := by
    rw [List.length_append]
    omega
  rw [read?, pretty, h.readsBack 0 _ blanks hfuel hends, Option.bind_some]
  simp [hskip]

/-- Between brackets, texts are read as the array of the values that they were written for. -/
theorem read?_joined {vs : List Json} (h : ∀ v ∈ vs, v.Plain) {blanks : List Char}
    (hblanks : ∀ c ∈ blanks, isSpace c = true) :
    read? ('[' :: (joined [] blanks 0 vs ++ [']'])) = some (.array vs) := by
  cases vs with
  | nil => rfl
  | cons v vs =>
    have hfuel : (joined [] blanks 0 (v :: vs)).length <
        (joined [] blanks 0 (v :: vs) ++ [']']).length + 1 := by
      rw [List.length_append]
      omega
    have hread := readValue_joined (List.forall_mem_nil _) hblanks (List.forall_mem_nil _)
      (List.cons_ne_nil v vs) h (fun w hw ↦ (h w hw).readsBack) hfuel []
    rw [List.nil_append] at hread
    rw [read?, List.length_cons, hread]
    rfl

end FencedCode.Json
