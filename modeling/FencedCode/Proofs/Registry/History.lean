import FencedCode.Proofs.Extraction.Entry
import FencedCode.Proofs.Registry.Changes
import FencedCode.Proofs.Relocation.Outcomes

/-!
# What a registry remembers

What a registry answers about a document is decided by what has happened to the entry of that
document alone: by the maps registered since the entry last began anew or was removed, and by
whether it was written after that. Only changes make up a history. To look something up or to
relocate diagnostics yields no registry, so it may happen at any time between two changes.
-/

namespace FencedCode

/-- What happens to the entry of a document. -/
inductive EntryEvent
  /-- The entry begins anew, without maps. -/
  | start
  | remove
  | register (map : FragmentMap)

namespace EntryEvent

/-- Whether an event writes the entry. -/
def isWrite : EntryEvent → Bool
  | remove => false
  | _ => true

/-- The map that an event registers. -/
def map? : EntryEvent → Option FragmentMap
  | register map => some map
  | _ => none

/-- An entry, none where there is no entry, after an event. -/
def apply (entry : Option (List FragmentMap)) : EntryEvent → Option (List FragmentMap)
  | start => some []
  | remove => none
  | register map => some (entry.getD [] ++ [map])

private theorem isWrite_eq_false_iff {e : EntryEvent} : e.isWrite = false ↔ e = remove := by
  cases e <;> simp [isWrite]

/-- Among events there is no write, or a last one. -/
theorem exists_last_write (es : List EntryEvent) : (∀ e ∈ es, e.isWrite = false) ∨
    ∃ before e after, es = before ++ e :: after ∧ e.isWrite = true ∧
      ∀ f ∈ after, f.isWrite = false := by
  induction es with
  | nil => exact .inl (by simp)
  | cons e es ih =>
    rcases ih with hnone | ⟨before, f, after, rfl, hf, hafter⟩
    · cases he : e.isWrite with
      | true => exact .inr ⟨[], e, es, rfl, he, hnone⟩
      | false => exact .inl (List.forall_mem_cons.mpr ⟨he, hnone⟩)
    · exact .inr ⟨e :: before, f, after, rfl, hf, hafter⟩

/-- Whether a document is unknown after events: its entry was never written, or removed after it was
written last. -/
def Forgotten (es : List EntryEvent) : Prop :=
  (∀ e ∈ es, e.isWrite = false) ∨
    ∃ before e after, es = before ++ e :: after ∧ e.isWrite = true ∧
      (∀ f ∈ after, f.isWrite = false) ∧ remove ∈ after

/-- The maps registered since the last event of another kind. -/
def registered (es : List EntryEvent) : List FragmentMap :=
  (es.rtakeWhile fun e ↦ e.map?.isSome).filterMap map?

private theorem forgotten_nil : Forgotten [] := .inl (by simp)

/-- The last event decides whether a document is known. -/
private theorem forgotten_concat (es : List EntryEvent) (e : EntryEvent) :
    Forgotten (es ++ [e]) ↔ e = remove := by
  constructor
  · intro h
    rw [← isWrite_eq_false_iff]
    rcases h with hnone | ⟨before, f, after, heq, -, hafter, hremove⟩
    · exact hnone e (by simp)
    · obtain ⟨init, last, rfl⟩ := List.eq_nil_or_concat after |>.resolve_left
        (List.ne_nil_of_mem hremove)
      have hends : es ++ [e] = (before ++ f :: init) ++ [last] := by
        rw [heq, List.concat_eq_append, List.append_assoc, List.cons_append]
      rw [(List.append_singleton_inj.mp hends).2]
      exact hafter last (by simp)
  · rintro rfl
    rcases exists_last_write es with hnone | ⟨before, f, after, rfl, hf, hafter⟩
    · left
      intro f hf
      rcases List.mem_append.mp hf with hf | hf
      · exact hnone f hf
      · rw [List.mem_singleton.mp hf, isWrite]
    · refine .inr ⟨before, f, after ++ [remove], by simp, hf, ?_, by simp⟩
      intro g hg
      rcases List.mem_append.mp hg with hg | hg
      · exact hafter g hg
      · rw [List.mem_singleton.mp hg, isWrite]

/-- After events on it, an entry is missing exactly when the document is unknown. -/
theorem foldl_apply_eq_none_iff (es : List EntryEvent) :
    es.foldl apply none = none ↔ Forgotten es := by
  rcases List.eq_nil_or_concat es with rfl | ⟨init, e, rfl⟩
  · exact iff_of_true rfl forgotten_nil
  · rw [List.concat_eq_append, forgotten_concat, List.foldl_concat]
    cases e <;> simp [apply]

/-- And it has the maps that were registered since the last other event. -/
private theorem getD_foldl_apply (es : List EntryEvent) :
    (es.foldl apply none).getD [] = registered es := by
  induction es using List.reverseRecOn with
  | nil => rfl
  | append_singleton es e ih =>
    rw [List.foldl_concat, registered]
    cases e with
    | start => rw [List.rtakeWhile_concat_neg _ _ _ (by simp [map?])]; rfl
    | remove => rw [List.rtakeWhile_concat_neg _ _ _ (by simp [map?])]; rfl
    | register map =>
      rw [List.rtakeWhile_concat_pos _ _ _ (by simp [map?]), List.filterMap_append, ← registered,
        ← ih]
      rfl

/-- A document is unknown, and has no entry and no maps, or it is known and its entry has the maps
that were registered last. -/
private theorem foldl_apply_cases (es : List EntryEvent) :
    (Forgotten es ∧ registered es = [] ∧ es.foldl apply none = none) ∨
      (¬Forgotten es ∧ es.foldl apply none = some (registered es)) := by
  rw [← foldl_apply_eq_none_iff, ← getD_foldl_apply]
  cases es.foldl apply none with
  | none => exact .inl ⟨rfl, rfl, rfl⟩
  | some maps => exact .inr ⟨Option.some_ne_none maps, rfl⟩

/-- Where nothing is written, nothing happens at all or the entry is removed. -/
private theorem eq_nil_or_foldl_apply_eq_none {es : List EntryEvent} (h : ∀ e ∈ es, e.isWrite = false) :
    es = [] ∨ (remove ∈ es ∧ ∀ entry, es.foldl apply entry = none) := by
  rcases List.eq_nil_or_concat es with rfl | ⟨init, e, rfl⟩
  · exact .inl rfl
  · right
    obtain rfl : e = remove := isWrite_eq_false_iff.mp (h e (by simp))
    refine ⟨by simp, ?_⟩
    intro entry
    rw [List.concat_eq_append, List.foldl_concat, apply]

end EntryEvent

namespace RegistryChange

/-- What a change does to the entry of its document. An extraction has the entry begin anew and
registers the maps that it makes, one after the other. -/
def ownEvents : RegistryChange → List EntryEvent
  | .reset _ => [.start]
  | .remove _ => [.remove]
  | .register _ map => [.register map]
  | .extract o document d => .start :: (d.extract o document).maps.map .register

/-- What a change does to the entry of a document, nothing unless it is its own. -/
def events (name : String) (c : RegistryChange) : List EntryEvent :=
  if c.document = name then c.ownEvents else []

/-- What changes do to the entry of a document, one after the other. -/
def history (name : String) (cs : List RegistryChange) : List EntryEvent := cs.flatMap (events name)

private theorem history_cons (name : String) (c : RegistryChange) (cs : List RegistryChange) :
    history name (c :: cs) = events name c ++ history name cs := List.flatMap_cons

end RegistryChange

/-- Of a registry only what is found under the identities of the pairs matters. -/
theorem relocateBatches_congr {r r' : Registry} {pairs : List (FragmentId × List Diagnostic)}
    (h : ∀ p ∈ pairs, r.find p.1 = r'.find p.1) :
    relocateBatches r pairs = relocateBatches r' pairs := by
  induction pairs with
  | nil => rfl
  | cons p pairs ih =>
    obtain ⟨hp, hrest⟩ := List.forall_mem_cons.mp h
    rw [relocateBatches, relocateBatches, hp, ih hrest]

namespace Registry

open RegistryChange

private theorem foldl_apply_map_register (maps more : List FragmentMap) :
    (more.map EntryEvent.register).foldl EntryEvent.apply (some maps) = some (maps ++ more) := by
  induction more generalizing maps with
  | nil => rw [List.map_nil, List.foldl_nil, List.append_nil]
  | cons map more ih =>
    rw [List.map_cons, List.foldl_cons, EntryEvent.apply, Option.getD_some, ih, List.append_assoc,
      List.singleton_append]

/-- A change does to an entry what its events do. -/
theorem maps?_apply (r : Registry) (c : RegistryChange) (name : String) :
    (c.apply r).maps? name = (c.events name).foldl EntryEvent.apply (r.maps? name) := by
  by_cases hname : c.document = name
  · rw [events, if_pos hname]
    subst hname
    cases c with
    | reset document => exact r.maps?_reset document
    | remove document => exact r.maps?_remove document
    | register document map => exact r.maps?_put document _
    | extract o document d =>
      rw [RegistryChange.apply, RegistryChange.document, extractDocument_eq, maps?_put, ownEvents,
        List.foldl_cons, EntryEvent.apply, foldl_apply_map_register, List.nil_append]
  · rw [events, if_neg hname, r.maps?_apply_of_ne hname, List.foldl_nil]

/-- And so do changes one after the other. -/
theorem maps?_foldl_apply (r : Registry) (cs : List RegistryChange) (name : String) :
    (cs.foldl RegistryChange.apply r).maps? name =
      (history name cs).foldl EntryEvent.apply (r.maps? name) := by
  induction cs generalizing r with
  | nil => rfl
  | cons c cs ih =>
    rw [List.foldl_cons, ih, maps?_apply, history_cons, List.foldl_append]

/-- Two registries with the same answers about a document: the same maps, found in the same ways,
and the same relocations. -/
structure AgreesOn (r r' : Registry) (name : String) : Prop where
  maps : r.maps name = r'.maps name
  length : r.length name = r'.length name
  get : r.get name = r'.get name
  find : ∀ id : FragmentId, id.document = name → r.find id = r'.find id
  relocate : relocate r name = relocate r' name
  relocateBatches : ∀ pairs : List (FragmentId × List Diagnostic),
    (∀ p ∈ pairs, p.1.document = name) → relocateBatches r pairs = relocateBatches r' pairs

/-- All that is answered about a document is read off its entry. -/
theorem agreesOn_of_maps?_eq {r r' : Registry} {name : String}
    (h : r.maps? name = r'.maps? name) : r.AgreesOn r' name := by
  have hmaps : r.maps name = r'.maps name := by rw [Registry.maps, Registry.maps, h]
  have hfind : ∀ id : FragmentId, id.document = name → r.find id = r'.find id := by
    rintro id rfl
    rw [Registry.find, Registry.find, hmaps]
  refine ⟨hmaps, ?_, ?_, hfind, ?_, ?_⟩
  · rw [Registry.length, Registry.length, h]
  · funext index
    rw [Registry.get, Registry.get, hmaps]
  · funext batches
    rw [FencedCode.relocate, FencedCode.relocate, hmaps]
  · intro pairs hpairs
    exact relocateBatches_congr fun p hp ↦ hfind p.1 (hpairs p hp)

/-- What a registry answers about a document to which the events `es` have happened: the maps that
were registered last, unless the document is unknown. -/
structure Recalls (r : Registry) (name : String) (es : List EntryEvent) : Prop where
  maps_ok : ∀ maps, r.maps name = .ok maps ↔
    ¬EntryEvent.Forgotten es ∧ maps = EntryEvent.registered es
  maps_error : ∀ e, r.maps name = .error e ↔
    EntryEvent.Forgotten es ∧ e = .unknownDocument name
  length : r.length name = (EntryEvent.registered es).length
  length_of_forgotten : EntryEvent.Forgotten es → r.length name = 0
  get_ok : ∀ index map, r.get name index = .ok map ↔
    (EntryEvent.registered es)[index]? = some map
  exists_get : ∀ index, (∃ map, r.get name index = .ok map) ↔ index < r.length name
  find_ok : ∀ id : FragmentId, id.document = name → ∀ map, r.find id = .ok map ↔
    map.id = id ∧ ∃ before after, EntryEvent.registered es = before ++ map :: after ∧
      ∀ other ∈ before, other.id ≠ id

/-- A registry recalls the events that made its entry. -/
theorem recalls_of_maps? {r : Registry} {name : String} {es : List EntryEvent}
    (h : r.maps? name = es.foldl EntryEvent.apply none) : r.Recalls name es := by
  rcases EntryEvent.foldl_apply_cases es with ⟨hforgotten, hnil, hfold⟩ | ⟨hknown, hfold⟩
  · rw [hfold] at h
    constructor
    · simp [maps_eq_ok_iff, h, hforgotten]
    · simp [maps_eq_error_iff, h, hforgotten]
    · simp [Registry.length, h, hnil]
    · simp [Registry.length, h]
    · simp [get_eq_ok_iff, h, hnil]
    · simp [get_eq_ok_iff, Registry.length, h]
    · rintro id rfl map
      simp [find_eq_ok_iff, h, hnil]
  · rw [hfold] at h
    have hlength : r.length name = (EntryEvent.registered es).length := by simp [Registry.length, h]
    have hget : ∀ index map, r.get name index = .ok map ↔
        (EntryEvent.registered es)[index]? = some map := by simp [get_eq_ok_iff, h]
    refine ⟨?_, ?_, hlength, fun hforgotten ↦ absurd hforgotten hknown, hget, ?_, ?_⟩
    · intro maps
      rw [maps_eq_ok_iff, h, Option.some.injEq, eq_comm, and_iff_right hknown]
    · simp [maps_eq_error_iff, h, hknown]
    · intro index
      simp only [hget, hlength, ← Option.isSome_iff_exists, isSome_getElem?]
    · rintro id rfl map
      simp [find_eq_ok_iff, h, List.find?_eq_some_iff_append]

/-- What a registry answers about a document after any changes is decided by what happened to the
entry of that document: it recalls the maps registered since the entry last began anew or was
removed, unless the document is unknown. A change to another document alters none of its answers.
And where the last write was an extraction, the answers are those of a registry in which nothing
but that extraction was made, unless the document was removed after it and nothing is relocated. -/
theorem recalls_foldl_apply (cs : List RegistryChange) (name : String) :
    let r := cs.foldl RegistryChange.apply empty
    r.Recalls name (history name cs) ∧
      (∀ c : RegistryChange, c.document ≠ name → (c.apply r).AgreesOn r name) ∧
      ∀ before o d after, cs = before ++ .extract o name d :: after →
        (∀ e ∈ history name after, e.isWrite = false) →
        (.remove ∉ history name after → r.AgreesOn (empty.extractDocument o name d).2 name) ∧
          (.remove ∈ history name after → ∀ batches,
            relocate r name batches = .error (.registry (.unknownDocument name))) := by
  intro r
  refine ⟨recalls_of_maps? (maps?_foldl_apply empty cs name),
    fun c hc ↦ agreesOn_of_maps?_eq (r.maps?_apply_of_ne hc), ?_⟩
  rintro before o d after hcs hafter
  have hentry : r.maps? name = (history name after).foldl EntryEvent.apply
      ((empty.extractDocument o name d).2.maps? name) := by
    simp only [r, hcs, List.foldl_append, List.foldl_cons]
    rw [maps?_foldl_apply, RegistryChange.apply, extractDocument_eq, extractDocument_eq, maps?_put,
      maps?_put]
  rcases EntryEvent.eq_nil_or_foldl_apply_eq_none hafter with hnil | ⟨hremove, hnone⟩
  · rw [hnil, List.foldl_nil] at hentry
    exact ⟨fun _ ↦ agreesOn_of_maps?_eq hentry, fun hremove ↦ by simp [hnil] at hremove⟩
  · refine ⟨fun hkept ↦ absurd hremove hkept, fun _ batches ↦ ?_⟩
    rw [hnone] at hentry
    exact ((relocate_eq_iff r name batches).1 _).mpr (.inl ⟨hentry, rfl⟩)

/-- A document extracted beside another, and one that is removed after it was extracted. -/
theorem recalls_foldl_apply_beside :
    let marked := Document.ofText Document.markedText
    ([.reset "other.md", .extract {} "doc.md" marked, .remove "other.md"].foldl
        RegistryChange.apply empty).AgreesOn
      (empty.extract {} "doc.md" Document.markedText).2 "doc.md" ∧
    relocate ([.extract {} "doc.md" marked, .remove "doc.md"].foldl
        RegistryChange.apply empty) "doc.md" [] =
      .error (.registry (.unknownDocument "doc.md")) := by
  intro marked
  constructor
  · have hnil : history "doc.md" [.remove "other.md"] = [] := rfl
    obtain ⟨-, -, hextract⟩ := recalls_foldl_apply
      [.reset "other.md", .extract {} "doc.md" marked, .remove "other.md"] "doc.md"
    have hlast := hextract [.reset "other.md"] {} marked [.remove "other.md"] rfl (by simp [hnil])
    exact hlast.1 (by simp [hnil])
  · have hremove : history "doc.md" [.remove "doc.md"] = [.remove] := rfl
    obtain ⟨-, -, hextract⟩ := recalls_foldl_apply
      [.extract {} "doc.md" marked, .remove "doc.md"] "doc.md"
    have hlast := hextract [] {} marked [.remove "doc.md"] rfl
      (by simp [hremove, EntryEvent.isWrite])
    exact hlast.2 (by simp [hremove]) []

end Registry

end FencedCode
