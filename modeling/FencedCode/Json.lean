/-!
# JSON values

The values of JSON. Natural numbers are told apart from all other numbers, which keep the text they
were written as. A string with an unpaired surrogate is well formed but holds no text, and an object
with such a name among its members has no members to look up.
-/

namespace FencedCode

/-- A JSON value. -/
inductive Json
  | null
  | bool (b : Bool)
  /-- A number written with digits alone. -/
  | natural (n : Nat)
  /-- A number with a sign, a fraction or an exponent, as it is written. -/
  | number (written : List Char)
  | string (s : List Char)
  /-- A string with an unpaired surrogate, or an object with one in a name. -/
  | unpaired
  | array (items : List Json)
  /-- The members of an object in the order in which they are written. -/
  | object (members : List (List Char × Json))
  deriving Repr, Inhabited

namespace Json

/-- A string value. -/
def ofString (s : String) : Json := .string s.toList

end Json

end FencedCode
