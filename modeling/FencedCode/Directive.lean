import FencedCode.Position
import FencedCode.Text.Blank
import FencedCode.Text.Word

/-!
# Linter directives

A directive is an HTML comment whose text starts with the word `eslint` or with `global` and a
blank. What it says is the shortest text between the comment's delimiters that leaves only blanks
out on either side.

Section 6 of the specification, the grammar of directives.
-/

namespace FencedCode

/-- A directive: what it says, and where its comment stands. -/
structure Directive where
  text : List Char
  location : Range
  deriving DecidableEq, Repr

namespace Directive

/-- The text that withholds all directives from the next fragment. -/
def skipMark : List Char := "eslint-skip".toList

/-- `cs` without the leading `lead`, when it starts with that. -/
def after? (lead cs : List Char) : Option (List Char) :=
  if lead.isPrefixOf cs then some (cs.drop lead.length) else none

/-- `cs` without the trailing `tail`, when it ends with that. -/
def before? (tail cs : List Char) : Option (List Char) :=
  if tail.isSuffixOf cs then some (cs.take (cs.length - tail.length)) else none

/-- The shortest non-empty leading part of a text that only blanks follow. -/
def shortestLead? : List Char → Option (List Char)
  | [] => none
  | c :: cs => some (c :: Text.trimEnd cs)

/-- The directive in the text of a comment, blanks before it left out: `eslint` up to a word
boundary, or `global` and one blank, and then at least one more character. -/
def body? (cs : List Char) : Option (List Char) :=
  match after? "eslint".toList cs with
  | some rest =>
    match rest with
    | c :: _ => if Text.isWord c then none else (shortestLead? rest).map ("eslint".toList ++ ·)
    | [] => none
  | none =>
    match after? "global".toList cs with
    | some (c :: rest) =>
      if Text.isBlank c then (shortestLead? rest).map (("global".toList ++ [c]) ++ ·) else none
    | _ => none

/-- What an HTML text says as a directive, if it is one. -/
def text? (html : List Char) : Option (List Char) :=
  (after? "<!--".toList (Text.trim html)).bind fun cs ↦
    (before? "-->".toList (Text.trimStart cs)).bind body?

end Directive

end FencedCode
