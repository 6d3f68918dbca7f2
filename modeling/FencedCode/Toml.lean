/-!
# TOML values

The values of TOML. A table remembers how it was made, because that decides what may still be added
to it.
-/

namespace FencedCode

namespace Toml

/-- How a table was made. -/
inductive Origin
  /-- By a header of its own, or as a whole document. -/
  | header
  /-- By the header of a table inside it. -/
  | implied
  /-- By a dotted key. -/
  | dotted
  /-- In braces, as a value. -/
  | inline
  deriving DecidableEq, Repr

end Toml

/-- A TOML value. -/
inductive Toml
  | string (s : List Char)
  | boolean (b : Bool)
  | integer (n : Int)
  /-- A floating-point number as it is written. -/
  | float (written : List Char)
  /-- A date, a time or both as they are written. -/
  | dateTime (written : List Char)
  | array (items : List Toml)
  /-- Tables with a header each, in the order in which they are written. -/
  | tables (items : List Toml)
  | table (origin : Toml.Origin) (members : List (List Char × Toml))
  deriving Inhabited

namespace Toml

/-- Keys with their values, in the order in which they were first named. -/
abbrev Members := List (List Char × Toml)

end Toml

end FencedCode
