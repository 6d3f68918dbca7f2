import FencedCode.Json

/-!
# Records in JSON

Values with named parts as JSON. Reading is strict about types and refuses a member that is given
twice, but passes over members that it does not know; a record may also be read from an array of its
values in the order of its members.
-/

namespace FencedCode.Json

/-- The members of a record with the given member names. -/
def record? (names : List (List Char)) : Json → Option (List (List Char × Json))
  | .object ms =>
    if names.all fun k ↦ (ms.filter (·.1 == k)).length ≤ 1 then some ms else none
  | .array vs => if vs.length ≤ names.length then some (names.zip vs) else none
  | _ => none

/-- A member that must be there. -/
def required? {α : Type} (read : Json → Option α) (ms : List (List Char × Json)) (name : String) :
    Option α :=
  (ms.lookup name.toList).bind read

/-- A member that has a default. -/
def defaulted? {α : Type} (read : Json → Option α) (default : α) (ms : List (List Char × Json))
    (name : String) : Option α :=
  match ms.lookup name.toList with
  | none => some default
  | some v => read v

/-- A value that may be null. -/
def nullable? {α : Type} (read : Json → Option α) : Json → Option (Option α)
  | .null => some none
  | v => (read v).map some

/-- A natural number below a bound. -/
def below? (bound : Nat) : Json → Option Nat
  | .natural n => if n < bound then some n else none
  | _ => none

/-- A number that fits a word of 64 bits. -/
def word? : Json → Option Nat := below? UInt64.size

/-- A string. -/
def string? : Json → Option String
  | .string s => some (String.ofList s)
  | _ => none

/-- An array of which every item can be read. -/
def list? {α : Type} (read : Json → Option α) : Json → Option (List α)
  | .array vs => vs.mapM read
  | _ => none

/-- A member with a string for its name. -/
def member (name : String) (v : Json) : List Char × Json := (name.toList, v)

/-- A member that is left out when there is no value. -/
def optional {α : Type} (name : String) (write : α → Json) : Option α → List (List Char × Json)
  | none => []
  | some a => [member name (write a)]

end FencedCode.Json
