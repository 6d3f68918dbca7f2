import FencedCode.Markdown.EntityTable
import FencedCode.Text.Numeral
import FencedCode.Text.Word

/-!
# Character references

References such as `&amp;` and `&#38;`, and texts in which they and backslash escapes are resolved.
-/

namespace FencedCode.Markdown

/-- The text that a named reference stands for. -/
def named? (name : List Char) : Option (List Char) :=
  (namedReferences.lookup (String.ofList name)).map fun codes ↦ codes.map Char.ofNat

/-- The character of a number: none for a number that no character has, and the replacement
character for zero. -/
def codeChar? (n : Nat) : Option Char :=
  if n = 0 then some (Char.ofNat 0xFFFD)
  else if n.isValidChar then some (Char.ofNat n)
  else none

/-- A numeric reference with digits of one class, at most `limit` of them: its length after what
comes before the digits, and the character. -/
def numeric? (isDigit : Char → Bool) (base limit : Nat) (cs : List Char) :
    Option (Nat × List Char) :=
  let ds := (cs.take limit).takeWhile isDigit
  match ds, cs.drop ds.length with
  | _ :: _, ';' :: _ => (codeChar? (Text.numeral base ds)).map fun c ↦ (ds.length + 1, [c])
  | _, _ => none

/-- The reference that `cs` continues after its ampersand: its length without that, and the text
that it stands for. -/
def reference? (cs : List Char) : Option (Nat × List Char) :=
  match cs with
  | '#' :: x :: ds =>
    if x = 'x' || x = 'X' then (numeric? Text.isHexDigit 16 6 ds).map fun (n, s) ↦ (n + 2, s)
    else (numeric? Char.isDigit 10 7 (x :: ds)).map fun (n, s) ↦ (n + 1, s)
  | _ =>
    let name := cs.takeWhile Char.isAlphanum
    match name, cs.drop name.length with
    | _ :: _, ';' :: _ => (named? name).map fun s ↦ (name.length + 1, s)
    | _, _ => none

/-- At most `fuel` characters of a text with references and backslash escapes resolved. -/
def unescapeFrom : Nat → List Char → List Char
  | 0, _ => []
  | _ + 1, [] => []
  | fuel + 1, c :: cs =>
    if c = '\\' then
      match cs with
      | d :: rest =>
        if Text.isAsciiPunctuation d then d :: unescapeFrom fuel rest
        else c :: unescapeFrom fuel cs
      | [] => [c]
    else if c = '&' then
      match reference? cs with
      | some (n, s) => s ++ unescapeFrom fuel (cs.drop n)
      | none => c :: unescapeFrom fuel cs
    else if c = '\r' then unescapeFrom fuel cs
    else c :: unescapeFrom fuel cs

/-- A text with references and backslash escapes resolved and without carriage returns. -/
def unescape (cs : List Char) : List Char := unescapeFrom cs.length cs

end FencedCode.Markdown
