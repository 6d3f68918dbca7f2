import FencedCode.Proofs.Extraction.Outcomes

/-!
# Changes to a registry

A registry changes when entries are reset or removed, when a single map is registered, and by
extractions. Each of these concerns one document, so that an entry stays as it was written for as
long as nothing happens to its own document.
-/

namespace FencedCode

/-- A change to a registry. -/
inductive RegistryChange
  | reset (document : String)
  | remove (document : String)
  | register (document : String) (map : FragmentMap)
  | extract (o : Selection) (document : String) (d : Document)

namespace RegistryChange

/-- The document that a change concerns. -/
def document : RegistryChange → String
  | .reset document => document
  | .remove document => document
  | .register document _ => document
  | .extract _ document _ => document

/-- A registry after a change. -/
def apply (r : Registry) : RegistryChange → Registry
  | .reset document => r.reset document
  | .remove document => r.remove document
  | .register document map => r.register document map
  | .extract o document d => (r.extractDocument o document d).2

end RegistryChange

namespace Registry

/-- A change leaves the entries of other documents as they are. -/
theorem maps?_apply_of_ne (r : Registry) {c : RegistryChange} {name : String}
    (h : c.document ≠ name) : (c.apply r).maps? name = r.maps? name := by
  cases c with
  | reset document => exact r.maps?_put_of_ne h.symm []
  | remove document => exact r.maps?_remove_of_ne h.symm
  | register document map => exact r.maps?_register_of_ne h.symm map
  | extract o document d => exact r.maps?_enter_of_ne h.symm _

/-- An entry stays as it is through changes that concern other documents. -/
theorem maps?_foldl_apply_of_ne (r : Registry) {cs : List RegistryChange} {name : String}
    (h : ∀ c ∈ cs, c.document ≠ name) :
    (cs.foldl RegistryChange.apply r).maps? name = r.maps? name := by
  induction cs generalizing r with
  | nil => rfl
  | cons c cs ih =>
    obtain ⟨hc, hcs⟩ := List.forall_mem_cons.mp h
    rw [List.foldl_cons, ih (c.apply r) hcs, r.maps?_apply_of_ne hc]

end Registry

end FencedCode
