import FencedCode.Text.Word

/-!
# Expansion of paths

Environment variables in a path, and a tilde for the home directory at its start. Variables come
first, and what they stand for is not expanded again. A path with a variable that is not set and has
no default is left as it is.

Section 8.2 of the specification.
-/

namespace FencedCode

/-- What paths are expanded with. -/
structure Environment where
  home : String
  /-- The value of a variable, when it is set. -/
  value? : String → Option String

namespace PathExpansion

/-- Whether a character may stand in the name of a variable without braces. -/
def isNameChar (c : Char) : Bool := Text.isAlphanumeric c || c == '_'

/-- A text cut at the first hyphen after a colon, both left out. -/
def splitDefault? : List Char → Option (List Char × List Char)
  | [] => none
  | ':' :: '-' :: cs => some ([], cs)
  | c :: cs => (splitDefault? cs).map fun (name, value) ↦ (c :: name, value)

/-- A part of a path. -/
inductive Part
  | text (s : List Char)
  /-- A variable, and what stands for it when it is not set. -/
  | variable (name : List Char) (default : Option (List Char))
  deriving DecidableEq, Repr

/-- The variable that the inside of braces names, with a default unless the name would be empty. -/
def Part.ofBraces (inside : List Char) : Part :=
  match splitDefault? inside with
  | some (c :: name, value) => .variable (c :: name) (some value)
  | _ => .variable inside none

/-- At most `fuel` parts of a path. A doubled dollar sign is a dollar sign, and so is one that names
no variable. -/
def partsFrom : Nat → List Char → List Part
  | 0, cs => [.text cs]
  | _ + 1, [] => []
  | fuel + 1, c :: cs =>
    if c ≠ '$' then .text [c] :: partsFrom fuel cs
    else
      match cs with
      | [] => [.text [c]]
      | x :: rest =>
        if x = '$' then .text [c] :: partsFrom fuel rest
        else if x = '\x7b' then
          let inside := rest.takeWhile (· != '\x7d')
          if inside.length = rest.length then .text [c, x] :: partsFrom fuel rest
          else .ofBraces inside :: partsFrom fuel (rest.drop (inside.length + 1))
        else if isNameChar x then
          .variable (cs.takeWhile isNameChar) none :: partsFrom fuel (cs.dropWhile isNameChar)
        else .text [c] :: partsFrom fuel cs

/-- The parts of a path. -/
def parts (path : List Char) : List Part := partsFrom (path.length + 1) path

/-- The variables that a path names. -/
def variableNames (path : List Char) : List String :=
  (parts path).filterMap fun
    | .text _ => none
    | .variable name _ => some (String.ofList name)

/-- The text that a part stands for. -/
def Part.value? (e : Environment) : Part → Option (List Char)
  | .text s => some s
  | .variable name default => ((e.value? (String.ofList name)).map String.toList).or default

/-- A path with its variables expanded; none when one of them has no value. -/
def expandVariables (e : Environment) (path : List Char) : Option (List Char) :=
  ((parts path).mapM (Part.value? e)).map List.flatten

/-- A path with the home directory for a tilde that is all of it or its first part. -/
def expandTilde (e : Environment) (path : List Char) : List Char :=
  match path with
  | ['~'] => e.home.toList
  | '~' :: '/' :: rest => e.home.toList ++ '/' :: rest
  | _ => path

/-- A path expanded. A tilde at the start counts only when the path itself starts with one. -/
def expand (e : Environment) (path : List Char) : List Char :=
  match expandVariables e path with
  | none => path
  | some expanded =>
    if path.head? = some '~' || expanded.head? ≠ some '~' then expandTilde e expanded else expanded

end PathExpansion

/-- A path with its variables and its tilde expanded. -/
def Environment.expandPath (e : Environment) (path : String) : String :=
  String.ofList (PathExpansion.expand e path.toList)

/-- The path of the configuration that is used when no other is given. -/
def Environment.configPath (e : Environment) : String := e.home ++ "/.config/mdfence/config.toml"

end FencedCode
