/-!
# Reading files

What can come of reading a file as text.
-/

namespace FencedCode

/-- Why a file cannot be read as text. -/
inductive ReadError
  | missing
  | directory
  /-- The bytes are no text in UTF-8. -/
  | notText
  /-- Anything else, in the words of the system. -/
  | other (message : String)
  deriving DecidableEq, Repr

/-- The wording of a read error. -/
def ReadError.message : ReadError → String
  | .missing => "No such file or directory (os error 2)"
  | .directory => "Is a directory (os error 21)"
  | .notText => "stream did not contain valid UTF-8"
  | .other message => message

/-- The outcome of reading a file. -/
abbrev Reading := Except ReadError (List Char)

end FencedCode
