import FencedCode.Proofs.Outcome
import FencedCode.Registry
import Mathlib.Data.List.Nodup

/-!
# Entries of a registry

What each operation makes of the entry of its document, and that it leaves the entries of all others
as they are; what is found in an entry, and why something is not.
-/

namespace FencedCode.Registry

private theorem lookup_filter_ne {document other : String} (h : other ≠ document)
    (es : List (String × List FragmentMap)) :
    (es.filter (·.1 != document)).lookup other = es.lookup other := by
  induction es with
  | nil => rfl
  | cons e es ih =>
    obtain ⟨key, maps⟩ := e
    by_cases hkey : key = document
    · have hother : (other == key) = false := by simpa [hkey] using h
      rw [List.filter_cons_of_neg (by simp [hkey]), List.lookup_cons, hother, ih]
    · rw [List.filter_cons_of_pos (by simpa using hkey), List.lookup_cons, List.lookup_cons, ih]

/-- A document has the maps that were put for it. -/
@[simp] theorem maps?_put (r : Registry) (document : String) (maps : List FragmentMap) :
    (r.put document maps).maps? document = some maps := by
  simp [put, maps?]

/-- Writing an entry leaves the others as they are. -/
theorem maps?_put_of_ne (r : Registry) {document other : String} (h : other ≠ document)
    (maps : List FragmentMap) : (r.put document maps).maps? other = r.maps? other := by
  have hother : (other == document) = false := by simpa using h
  rw [put, maps?, List.lookup_cons, hother]
  exact lookup_filter_ne h r.entries

/-- A document that was reset has no maps. -/
@[simp] theorem maps?_reset (r : Registry) (document : String) :
    (r.reset document).maps? document = some [] := maps?_put r document []

/-- To register a map is to write the entry with one more. -/
private theorem register_eq_put {r : Registry} {document : String} {maps : List FragmentMap}
    (h : r.maps? document = some maps) (map : FragmentMap) :
    r.register document map = r.put document (maps ++ [map]) := by
  rw [register, h, Option.getD_some]

/-- Registering a map leaves the other documents as they were. -/
theorem maps?_register_of_ne (r : Registry) {document other : String} (h : other ≠ document)
    (map : FragmentMap) : (r.register document map).maps? other = r.maps? other :=
  r.maps?_put_of_ne h _

/-- A document that was removed is unknown. -/
@[simp] theorem maps?_remove (r : Registry) (document : String) :
    (r.remove document).maps? document = none := by
  rw [maps?, remove, List.lookup_eq_none_iff]
  simp only [List.mem_filter, bne_iff_ne]
  exact fun e he ↦ he.2.symm

/-- Removing a document leaves the others as they were. -/
theorem maps?_remove_of_ne (r : Registry) {document other : String} (h : other ≠ document) :
    (r.remove document).maps? other = r.maps? other :=
  lookup_filter_ne h r.entries

/-- The entry that was written last counts. -/
theorem put_put (r : Registry) (document : String) (maps maps' : List FragmentMap) :
    (r.put document maps).put document maps' = r.put document maps' := by
  rw [put, put, remove, List.filter_cons_of_neg (by simp)]
  simp [put, remove, List.filter_filter]

/-- Maps registered one after the other come after those that the entry has. -/
theorem foldl_register_put (r : Registry) (document : String) (maps more : List FragmentMap) :
    more.foldl (fun r map ↦ r.register document map) (r.put document maps) =
      r.put document (maps ++ more) := by
  induction more generalizing maps with
  | nil => rw [List.foldl_nil, List.append_nil]
  | cons map more ih =>
    rw [List.foldl_cons, register_eq_put (r.maps?_put document maps), put_put, ih,
      List.append_assoc, List.singleton_append]

/-- Maps are given for the documents that are known. -/
theorem maps_eq_ok_iff {r : Registry} {document : String} {maps : List FragmentMap} :
    r.maps document = .ok maps ↔ r.maps? document = some maps := by
  rw [Registry.maps]
  cases r.maps? document with
  | none => simp
  | some maps' => simp

/-- The only error for a document is that it is unknown. -/
theorem maps_eq_error_iff {r : Registry} {document : String} {e : RegistryError} :
    r.maps document = .error e ↔
      r.maps? document = none ∧ e = .unknownDocument document := by
  rw [Registry.maps]
  cases r.maps? document with
  | none => simp [eq_comm]
  | some maps => simp

/-- A map is given by its index among those of its document. -/
theorem get_eq_ok_iff {r : Registry} {document : String} {index : Nat} {map : FragmentMap} :
    r.get document index = .ok map ↔
      ∃ maps, r.maps? document = some maps ∧ maps[index]? = some map := by
  rw [get, bind_eq_ok_iff]
  simp only [maps_eq_ok_iff]
  apply exists_congr
  intro maps
  apply and_congr_right
  intro _
  cases maps[index]? with
  | none => simp
  | some map' => simp

/-- A map is found by its id among those of its document. -/
theorem find_eq_ok_iff {r : Registry} {id : FragmentId} {map : FragmentMap} :
    r.find id = .ok map ↔
      ∃ maps, r.maps? id.document = some maps ∧ maps.find? (·.id == id) = some map := by
  rw [find, bind_eq_ok_iff]
  simp only [maps_eq_ok_iff]
  apply exists_congr
  intro maps
  apply and_congr_right
  intro _
  cases maps.find? (·.id == id) with
  | none => simp
  | some map' => simp

/-- An identity is not found when its document has no entry, or when no map of the entry has it. -/
theorem find_eq_error_iff {r : Registry} {id : FragmentId} {e : RegistryError} :
    r.find id = .error e ↔
      (r.maps? id.document = none ∧ e = .unknownDocument id.document) ∨
        ∃ maps, r.maps? id.document = some maps ∧ (∀ map ∈ maps, map.id ≠ id) ∧
          e = .unknownFragment id := by
  rw [find, Registry.maps]
  cases r.maps? id.document with
  | none => simp [eq_comm]
  | some maps =>
    rw [ok_bind]
    cases h : maps.find? (·.id == id) with
    | none =>
      have hne : ∀ map ∈ maps, map.id ≠ id := by simpa using h
      constructor
      · intro herror
        exact .inr ⟨maps, rfl, hne, (Except.error.inj herror).symm⟩
      · rintro (⟨hnone, -⟩ | ⟨_, -, -, rfl⟩)
        · cases hnone
        · rfl
    | some map =>
      have hmem := List.mem_of_find?_eq_some h
      have hid : map.id = id := by simpa using List.find?_some h
      constructor
      · intro herror
        cases herror
      · rintro (⟨hnone, -⟩ | ⟨_, hmaps, hne, -⟩)
        · cases hnone
        · obtain rfl := Option.some.inj hmaps
          exact absurd hid (hne map hmem)

/-- Where the identities of an entry differ, each map is the one that is found under its own. -/
theorem find_of_nodup {r : Registry} {document : String} {maps : List FragmentMap}
    {map : FragmentMap} (h : r.maps? document = some maps) (hnodup : (maps.map (·.id)).Nodup)
    (hmap : map ∈ maps) (hdocument : map.id.document = document) : r.find map.id = .ok map := by
  rw [find_eq_ok_iff]
  refine ⟨maps, by rw [hdocument, h], ?_⟩
  cases hfind : maps.find? (·.id == map.id) with
  | none =>
    have hne : ∀ other ∈ maps, other.id ≠ map.id := by simpa using hfind
    exact absurd rfl (hne map hmap)
  | some other =>
    have hid : other.id = map.id := by simpa using List.find?_some hfind
    have hother := List.mem_of_find?_eq_some hfind
    rw [List.inj_on_of_nodup_map hnodup hother hmap hid]

/-- Whether an identity is registered: the entry of its document has a map with it. -/
def Registers (r : Registry) (id : FragmentId) : Prop :=
  ∃ maps, r.maps? id.document = some maps ∧ ∃ map ∈ maps, map.id = id

/-- Why an identity that is not registered cannot be found. -/
def notFound (r : Registry) (id : FragmentId) : RegistryError :=
  if (r.maps? id.document).isNone then .unknownDocument id.document else .unknownFragment id

/-- The identities that are found are those that are registered. -/
theorem find_cases (r : Registry) (id : FragmentId) :
    (r.Registers id ∧ ∃ map, r.find id = .ok map) ∨
      (¬r.Registers id ∧ r.find id = .error (r.notFound id)) := by
  cases h : r.find id with
  | ok map =>
    left
    obtain ⟨maps, hmaps, hfind⟩ := find_eq_ok_iff.mp h
    exact ⟨⟨maps, hmaps, map, List.mem_of_find?_eq_some hfind,
        by simpa using List.find?_some hfind⟩,
      map, rfl⟩
  | error e =>
    right
    rw [Registers, notFound]
    rcases find_eq_error_iff.mp h with ⟨hnone, rfl⟩ | ⟨maps, hmaps, hne, rfl⟩
    · exact ⟨by simp [hnone], by simp [hnone]⟩
    · refine ⟨?_, by simp [hmaps]⟩
      rintro ⟨maps', hmaps', map, hmap, hid⟩
      obtain rfl : maps = maps' := Option.some.inj (hmaps.symm.trans hmaps')
      exact hne map hmap hid

end FencedCode.Registry
