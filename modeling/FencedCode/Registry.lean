import FencedCode.Fragment.Map

/-!
# Registered fragments

A `Registry` keeps the maps of the fragments of each document, in the order in which they were
registered, until the document is reset or removed.

Section 4.6 of the specification.
-/

namespace FencedCode

/-- Why a fragment cannot be found. -/
inductive RegistryError
  | unknownDocument (document : String)
  | fragmentOutOfRange (document : String) (index length : Nat)
  | unknownFragment (id : FragmentId)
  deriving DecidableEq, Repr

/-- The wording of a registry error. -/
def RegistryError.message : RegistryError → String
  | .unknownDocument document => "no fragments registered for document " ++ document
  | .fragmentOutOfRange document index length =>
    "document " ++ document ++ " has " ++ toString length ++ " fragments, index " ++
      toString index ++ " requested"
  | .unknownFragment id => "fragment " ++ id.text ++ " is not registered"

/-- Fragment maps by document; a document has at most one entry. -/
structure Registry where
  entries : List (String × List FragmentMap) := []

namespace Registry

/-- The registry without documents. -/
def empty : Registry := ⟨[]⟩

/-- The maps of a document that has an entry. -/
def maps? (r : Registry) (document : String) : Option (List FragmentMap) :=
  r.entries.lookup document

/-- A registry without an entry for `document`. -/
def remove (r : Registry) (document : String) : Registry :=
  ⟨r.entries.filter fun e ↦ e.1 != document⟩

/-- A registry whose entry for `document` is `maps`. -/
def put (r : Registry) (document : String) (maps : List FragmentMap) : Registry :=
  ⟨(document, maps) :: (r.remove document).entries⟩

/-- A registry with an empty entry for `document`. -/
def reset (r : Registry) (document : String) : Registry := r.put document []

/-- A registry with one more map for `document`, after those it has. -/
def register (r : Registry) (document : String) (map : FragmentMap) : Registry :=
  r.put document ((r.maps? document).getD [] ++ [map])

/-- The maps of a document. -/
def maps (r : Registry) (document : String) : Except RegistryError (List FragmentMap) :=
  match r.maps? document with
  | some maps => .ok maps
  | none => .error (.unknownDocument document)

/-- The map of a document at an index. -/
def get (r : Registry) (document : String) (index : Nat) : Except RegistryError FragmentMap := do
  let maps ← r.maps document
  match maps[index]? with
  | some map => return map
  | none => .error (.fragmentOutOfRange document index maps.length)

/-- The first map registered under the document of an identity that has this identity. -/
def find (r : Registry) (id : FragmentId) : Except RegistryError FragmentMap := do
  let maps ← r.maps id.document
  match maps.find? (·.id == id) with
  | some map => return map
  | none => .error (.unknownFragment id)

/-- Number of maps of a document, zero for one without an entry. -/
def length (r : Registry) (document : String) : Nat := ((r.maps? document).getD []).length

end Registry

end FencedCode
