import FencedCode.Extraction
import FencedCode.Reading
import FencedCode.Toml.Reader
import FencedCode.Toml.Writer

/-!
# Configuration

Which languages are extracted and whether marked fragments are left out, as a TOML document. Both
have a default, keys that are not known are passed over, and a value of another type is an error.

Section 8.2 of the specification.
-/

namespace FencedCode

/-- A configuration. -/
structure Config where
  /-- The accepted languages; when there are none, every language is. -/
  languages : List String := []
  /-- Whether fragments marked to be skipped are left out. -/
  skipMarked : Bool := false
  deriving DecidableEq, Repr

/-- Why a configuration cannot be loaded. -/
inductive ConfigError
  | unreadable (path : String) (cause : ReadError)
  /-- The file is no TOML document, or a value has another type. -/
  | malformed (path : String)
  deriving DecidableEq, Repr

/-- The wording of a configuration error. -/
def ConfigError.message : ConfigError → String
  | .unreadable path cause => "Failed to read config file at " ++ path ++ ": " ++ cause.message
  | .malformed path => "Failed to parse config file at " ++ path

namespace Config

/-- The key of the accepted languages. -/
def languagesKey : String := "languages"

/-- The key that tells whether marked fragments are left out. -/
def skipMarkedKey : String := "skip_marked"

/-- The strings of an array of strings. -/
def strings? : Toml → Option (List String)
  | .array items =>
    items.mapM fun
      | .string s => some (String.ofList s)
      | _ => none
  | _ => none

/-- A truth value. -/
def bool? : Toml → Option Bool
  | .boolean b => some b
  | _ => none

/-- A member with a default. -/
def member? {α : Type} (read : Toml → Option α) (default : α) (ms : Toml.Members) (key : String) :
    Option α :=
  match ms.lookup key.toList with
  | none => some default
  | some v => read v

/-- The configuration that a TOML text describes. -/
def read? (text : List Char) : Option Config := do
  let ms ← Toml.read? text
  let languages ← member? strings? [] ms languagesKey
  let skipMarked ← member? bool? false ms skipMarkedKey
  return { languages, skipMarked }

/-- A configuration as a TOML text. -/
def write (c : Config) : List Char :=
  Toml.writeMember languagesKey (Toml.writeStrings (c.languages.map String.toList)) ++
    Toml.writeMember skipMarkedKey (Toml.writeBool c.skipMarked)

/-- The configuration in the file at a path, given what reading the file gave; none when there is no
file. -/
def load (path : String) : Reading → Except ConfigError (Option Config)
  | .error .missing => .ok none
  | .error cause => .error (.unreadable path cause)
  | .ok text =>
    match read? text with
    | some c => .ok (some c)
    | none => .error (.malformed path)

/-- The extraction that a configuration asks for. -/
def selection (c : Config) : Selection := ⟨c.languages, c.skipMarked⟩

end Config

end FencedCode
