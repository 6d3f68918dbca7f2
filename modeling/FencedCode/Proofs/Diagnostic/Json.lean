import FencedCode.Diagnostic.Json
import FencedCode.Proofs.Json.Records
import FencedCode.Proofs.Json.Values

/-!
# Diagnostics that were written

What is written of diagnostics is read as the same diagnostics, by the reader of the batches too.
Reading takes every element or none at all.
-/

namespace FencedCode

open Json

/-! ## Fixes -/

namespace Fix

/-- Whether the range fits words of 64 bits. -/
structure FitsWords (f : Fix) : Prop where
  start : f.start < UInt64.size
  stop : f.stop < UInt64.size

instance (f : Fix) : Decidable f.FitsWords :=
  decidable_of_iff (f.start < UInt64.size ∧ f.stop < UInt64.size)
    ⟨fun h ↦ ⟨h.1, h.2⟩, fun h ↦ ⟨h.start, h.stop⟩⟩

private theorem plain_toJson (f : Fix) : f.toJson.Plain := by
  refine .object fun m hm ↦ ?_
  rcases List.mem_pair.mp hm with rfl | rfl
  · refine .array fun v hv ↦ ?_
    rcases List.mem_pair.mp hv with rfl | rfl <;> exact .natural _
  · exact .string _

private theorem toJson_ne_null (f : Fix) : f.toJson ≠ .null := Json.noConfusion

private theorem ofJson?_toJson {f : Fix} (h : f.FitsWords) : ofJson? f.toJson = some f := by
  have hrange : list? word? (.array [.natural f.start, .natural f.stop]) =
      some [f.start, f.stop] :=
    list?_eq_some_iff.mpr ⟨_, rfl, .cons (word?_natural h.start)
      (.cons (word?_natural h.stop) .nil)⟩
  have hmembers : record? memberNames f.toJson = some
      [member "range" (.array [.natural f.start, .natural f.stop]),
        member "text" (.ofString f.text)] :=
    record?_object (by decide) (List.Sublist.refl memberNames)
  rw [ofJson?, hmembers]
  simp [hrange, string?_ofString]

end Fix

/-! ## Suggestions -/

namespace Suggestion

/-- Whether the range of the fix, if there is one, fits words of 64 bits. -/
def FitsWords (s : Suggestion) : Prop := ∀ f ∈ s.fix, f.FitsWords

instance (s : Suggestion) : Decidable s.FitsWords :=
  inferInstanceAs (Decidable (∀ f ∈ s.fix, f.FitsWords))

private theorem plain_toJson (s : Suggestion) : s.toJson.Plain := by
  refine .object fun m hm ↦ ?_
  rcases List.mem_cons.mp hm with rfl | hm
  · exact .string _
  · exact plain_of_mem_optional Fix.plain_toJson hm

private theorem ofJson?_toJson {s : Suggestion} (h : s.FitsWords) : ofJson? s.toJson = some s := by
  have hfix := elim_nullable? fun f hf ↦ ⟨f.toJson_ne_null, Fix.ofJson?_toJson (h f hf)⟩
  have hmembers : record? memberNames s.toJson = some
      (member "desc" (.ofString s.description) :: optional "fix" Fix.toJson s.fix) :=
    record?_object (by decide) ((map_fst_optional_sublist "fix" Fix.toJson s.fix).cons_cons _)
  rw [ofJson?, hmembers]
  simp [hfix, string?_ofString]

end Suggestion

/-! ## Diagnostics -/

namespace Diagnostic

/-- Whether all numbers, bytes apart, fit words of 64 bits. -/
structure FitsWords (d : Diagnostic) : Prop where
  line : d.line < UInt64.size
  column : d.column < UInt64.size
  endLine : ∀ n ∈ d.endLine, n < UInt64.size
  endColumn : ∀ n ∈ d.endColumn, n < UInt64.size
  fix : ∀ f ∈ d.fix, f.FitsWords
  suggestions : ∀ s ∈ d.suggestions, s.FitsWords

instance (d : Diagnostic) : Decidable d.FitsWords :=
  decidable_of_iff (d.line < UInt64.size ∧ d.column < UInt64.size ∧
      (∀ n ∈ d.endLine, n < UInt64.size) ∧ (∀ n ∈ d.endColumn, n < UInt64.size) ∧
      (∀ f ∈ d.fix, f.FitsWords) ∧ ∀ s ∈ d.suggestions, s.FitsWords)
    ⟨fun ⟨hline, hcolumn, hendLine, hendColumn, hfix, hsuggestions⟩ ↦
        ⟨hline, hcolumn, hendLine, hendColumn, hfix, hsuggestions⟩,
      fun h ↦ ⟨h.line, h.column, h.endLine, h.endColumn, h.fix, h.suggestions⟩⟩

/-- The suggestions as a value that is missing when there are none. -/
def suggestions? (d : Diagnostic) : Option (List Suggestion) :=
  if d.suggestions.isEmpty then none else some d.suggestions

/-- The suggestions as JSON. -/
def suggestionsJson (ss : List Suggestion) : Json := .array (ss.map Suggestion.toJson)

/-- The members of a diagnostic, in the order of `memberNames`. -/
def members (d : Diagnostic) : List (List Char × Json) :=
  member "ruleId" (d.rule.elim .null .ofString) :: member "message" (.ofString d.message) ::
  member "severity" (.natural d.severity.toNat) :: member "line" (.natural d.line) ::
  member "column" (.natural d.column) ::
  (optional "endLine" .natural d.endLine ++ (optional "endColumn" .natural d.endColumn ++
    (optional "fix" Fix.toJson d.fix ++ optional "suggestions" suggestionsJson d.suggestions?)))

private theorem toJson_eq (d : Diagnostic) : d.toJson = .object d.members := by
  have hlast : optional "suggestions" suggestionsJson d.suggestions? =
      if d.suggestions.isEmpty then []
      else [member "suggestions" (.array (d.suggestions.map Suggestion.toJson))] := by
    rw [suggestions?]
    split <;> rfl
  rw [members, hlast, toJson]
  simp only [List.append_assoc, List.cons_append, List.nil_append]

private theorem map_fst_members_sublist (d : Diagnostic) :
    (d.members.map Prod.fst).Sublist memberNames :=
  .cons_cons _ <| .cons_cons _ <| .cons_cons _ <| .cons_cons _ <| .cons_cons _ <|
    map_fst_optional_append_sublist _ _ _ <| map_fst_optional_append_sublist _ _ _ <|
    map_fst_optional_append_sublist _ _ _ <| map_fst_optional_sublist _ _ _

private theorem plain_toJson (d : Diagnostic) : d.toJson.Plain := by
  rw [toJson_eq]
  refine .object fun m hm ↦ ?_
  simp only [members, List.mem_cons, List.mem_append] at hm
  rcases hm with rfl | rfl | rfl | rfl | rfl | hm | hm | hm | hm
  · cases d.rule with
    | none => exact .null
    | some rule => exact .string _
  · exact .string _
  · exact .natural _
  · exact .natural _
  · exact .natural _
  · exact plain_of_mem_optional .natural hm
  · exact plain_of_mem_optional .natural hm
  · exact plain_of_mem_optional Fix.plain_toJson hm
  · exact plain_of_mem_optional (fun ss ↦ .array (List.forall_mem_map.mpr
      fun s _ ↦ s.plain_toJson)) hm

private theorem ofJson?_toJson {d : Diagnostic} (h : d.FitsWords) : ofJson? d.toJson = some d := by
  have hrule : nullable? string? (d.rule.elim .null .ofString) = some d.rule := by
    cases d.rule with
    | none => rfl
    | some rule => exact nullable?_of_eq_some Json.noConfusion (string?_ofString rule)
  have hseverity : below? 256 (.natural d.severity.toNat) = some d.severity.toNat :=
    if_pos d.severity.toNat_lt
  have hendLine := elim_nullable? fun n hn ↦ ⟨Json.noConfusion, word?_natural (h.endLine n hn)⟩
  have hendColumn := elim_nullable? fun n hn ↦ ⟨Json.noConfusion, word?_natural (h.endColumn n hn)⟩
  have hfix := elim_nullable? fun f hf ↦ ⟨f.toJson_ne_null, Fix.ofJson?_toJson (h.fix f hf)⟩
  have hsuggestions : (d.suggestions?.elim (some []) fun ss ↦
      list? Suggestion.ofJson? (suggestionsJson ss)) = some d.suggestions := by
    rw [suggestions?]
    split
    · next hempty => rw [List.isEmpty_iff.mp hempty]; rfl
    · exact list?_map fun s hs ↦ Suggestion.ofJson?_toJson (h.suggestions s hs)
  rw [toJson_eq, ofJson?, record?_object (by decide) d.map_fst_members_sublist]
  simp [members, hrule, hseverity, hendLine, hendColumn, hfix, hsuggestions, string?_ofString,
    word?_natural h.line, word?_natural h.column]

/-! ## Lists and batches -/

/-- Diagnostics as a JSON value. -/
def listJson (ds : List Diagnostic) : Json := .array (ds.map toJson)

private theorem plain_listJson (ds : List Diagnostic) : (listJson ds).Plain :=
  .array (List.forall_mem_map.mpr fun d _ ↦ d.plain_toJson)

private theorem list?_listJson {ds : List Diagnostic} (h : ∀ d ∈ ds, d.FitsWords) :
    list? ofJson? (listJson ds) = some ds := list?_map fun d hd ↦ ofJson?_toJson (h d hd)

/-- What is written of a list is read as that list. -/
theorem readList?_writeList {ds : List Diagnostic} (h : ∀ d ∈ ds, d.FitsWords)
    {blanks : List Char} (hblanks : ∀ c ∈ blanks, isSpace c = true) :
    readList? (writeList ds ++ blanks) = some ds := by
  rw [readList?, writeList, ← listJson, read?_pretty (plain_listJson ds) hblanks, Option.bind_some,
    list?_listJson h]

/-- Lists that are written between brackets are read as the batches that they are. -/
theorem readBatches?_joined {dss : List (List Diagnostic)} (h : ∀ ds ∈ dss, ∀ d ∈ ds, d.FitsWords)
    {blanks : List Char} (hblanks : ∀ c ∈ blanks, isSpace c = true) :
    readBatches? ('[' :: (joined [] blanks 0 (dss.map listJson) ++ [']'])) = some dss := by
  rw [readBatches?, read?_joined (List.forall_mem_map.mpr fun ds _ ↦ plain_listJson ds) hblanks,
    Option.bind_some, list?_map fun ds hds ↦ list?_listJson (h ds hds)]

/-- What the readers take of a text: every element, in order, or nothing. -/
structure AllOrNothing (text : List Char) : Prop where
  /-- A list is read where each of its elements is. -/
  list (ds : List Diagnostic) : readList? text = some ds ↔
    ∃ vs, Json.read? text = some (.array vs) ∧ List.Forall₂ (fun v d ↦ ofJson? v = some d) vs ds
  /-- Batches are read where each element of each of them is. -/
  batches (dss : List (List Diagnostic)) : readBatches? text = some dss ↔
    ∃ rows : List (List Json), Json.read? text = some (.array (rows.map .array)) ∧
      List.Forall₂ (List.Forall₂ fun v d ↦ ofJson? v = some d) rows dss
  /-- One element that cannot be read spoils all batches. -/
  malformed {rows : List Json} {vs : List Json} {v : Json}
    (hrows : Json.read? text = some (.array rows)) (hvs : .array vs ∈ rows) (hv : v ∈ vs)
    (h : ofJson? v = none) : readBatches? text = none

private theorem allOrNothing (text : List Char) : AllOrNothing text where
  list ds := by
    simp only [readList?, Option.bind_eq_some_iff, list?_eq_some_iff]
    constructor
    · rintro ⟨_, hread, vs, rfl, hvs⟩
      exact ⟨vs, hread, hvs⟩
    · rintro ⟨vs, hread, hvs⟩
      exact ⟨_, hread, vs, rfl, hvs⟩
  batches dss := by
    simp only [readBatches?, Option.bind_eq_some_iff, list?_list?_eq_some_iff]
    constructor
    · rintro ⟨_, hread, rows, rfl, hrows⟩
      exact ⟨rows, hread, hrows⟩
    · rintro ⟨rows, hread, hrows⟩
      exact ⟨_, hread, rows, rfl, hrows⟩
  malformed hrows hvs hv h := by
    rw [readBatches?, hrows, Option.bind_some]
    exact list?_array_eq_none_iff.mpr ⟨_, hvs, list?_array_eq_none_iff.mpr ⟨_, hv, h⟩⟩

/-- Diagnostics survive their text: what is printed of them, with the line feed that ends it, is
read as they were, alone and as a batch. No text is read in part. -/
theorem survive_text (ds : List Diagnostic) (h : ∀ d ∈ ds, d.FitsWords) :
    readList? (writeList ds ++ ['\n']) = some ds ∧
      readBatches? ('[' :: (writeList ds ++ ['\n', ']'])) = some [ds] ∧
      ∀ text, AllOrNothing text := by
  have hblanks : ∀ c ∈ ['\n'], isSpace c = true := List.forall_mem_singleton.mpr rfl
  refine ⟨readList?_writeList h hblanks, ?_, allOrNothing⟩
  have hbatch := readBatches?_joined (List.forall_mem_singleton.mpr h) hblanks
  rwa [List.map_singleton, joined_singleton, List.nil_append, List.append_assoc] at hbatch

/-- Of two diagnostics, one with the greatest numbers and with marks that have to be escaped, the
other with hardly anything. -/
theorem survive_text_marks :
    readList? (writeList
        [{ rule := some "no-\"quotes\"", message := "\t\x01 and 𝄞", severity := 255,
           line := 18446744073709551615, column := 0, endLine := some 3,
           fix := some ⟨0, 4, "a\\b"⟩,
           suggestions := [⟨"drop", some ⟨1, 2, ""⟩⟩, ⟨"keep", none⟩] },
          { line := 1, column := 0 }] ++ ['\n']) =
      some [{ rule := some "no-\"quotes\"", message := "\t\x01 and 𝄞", severity := 255,
              line := 18446744073709551615, column := 0, endLine := some 3,
              fix := some ⟨0, 4, "a\\b"⟩,
              suggestions := [⟨"drop", some ⟨1, 2, ""⟩⟩, ⟨"keep", none⟩] },
            { line := 1, column := 0 }] :=
  (survive_text _ (by decide)).1

end Diagnostic

end FencedCode
