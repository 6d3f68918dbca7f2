import FencedCode.Markdown.BlockStart
import FencedCode.Markdown.Html
import FencedCode.Text.CaseFold

/-!
# Parts of links

Labels, destinations and titles. Only where they end and which labels are the same matters to a
document tree, so destinations and titles are passed over and labels are folded.
-/

namespace FencedCode.Markdown.Link

/-- How a part of a link goes on after a line ending: the text to go on with, or not at all. -/
abbrev OnNewLine := List Char → Option (List Char)

/-- The most characters that a label may have. -/
def maxLabelLength : Nat := 1000

/-- Blanks and at most one line ending inside a label, and how many characters they are. -/
def labelSpace? (onNewLine : OnNewLine) (ended : Bool) : Nat → List Char →
    Option (List Char)
  | 0, cs => some cs
  | fuel + 1, cs =>
    match cs with
    | [] => some []
    | c :: rest =>
      if isEnding c then
        if ended then none
        else (onNewLine (cs.drop ((endingLength? cs).getD 1))).bind fun rest ↦
          labelSpace? onNewLine true fuel rest
      else if isSpacing c then labelSpace? onNewLine ended fuel rest
      else some cs

/-- The inside of a label up to its closing bracket, blanks run together, and the text after the
bracket; `count` characters came before. -/
def labelFrom? (onNewLine : OnNewLine) (count : Nat) : Nat → List Char →
    Option (List Char × List Char)
  | 0, _ => none
  | fuel + 1, cs =>
    if maxLabelLength ≤ count then none
    else
      match cs with
      | [] => none
      | c :: rest =>
        if c = '[' then none
        else if c = ']' then some ([], rest)
        else if c = '\\' then
          match rest with
          | [] => none
          | d :: rest =>
            (labelFrom? onNewLine (count + 2) fuel rest).map fun (s, rest) ↦ (c :: d :: s, rest)
        else if isSpacing c || isEnding c then
          (labelSpace? onNewLine false cs.length cs).bind fun rest ↦
            (labelFrom? onNewLine (count + 1) fuel rest).map fun (s, rest) ↦ (' ' :: s, rest)
        else (labelFrom? onNewLine (count + 1) fuel rest).map fun (s, rest) ↦ (c :: s, rest)

/-- The label at the start of a text, which starts with an opening bracket: folded and without
blanks at its ends; and the text after it. A label is not blank. -/
def label? (onNewLine : OnNewLine) (cs : List Char) : Option (List Char × List Char) :=
  match cs with
  | '[' :: cs =>
    (labelFrom? onNewLine 0 (cs.length + 1) cs).bind fun (s, rest) ↦
      let trimmed := ((s.dropWhile (· == ' ')).reverse.dropWhile (· == ' ')).reverse
      if trimmed.isEmpty then none else some (Text.foldCase trimmed, rest)
  | _ => none

/-- The text after a destination in angle brackets, the opening one left out. -/
def pointedRest? : List Char → Option (List Char)
  | [] => none
  | c :: cs =>
    if c = '>' then some cs
    else if isEnding c || c = '<' then none
    else if c = '\\' then
      match cs with
      | d :: rest => if Text.isAsciiPunctuation d then pointedRest? rest else pointedRest? (d :: rest)
      | [] => none
    else pointedRest? cs

/-- The text after a bare destination inside `depth` parentheses, of which at most `most` may be
nested. -/
def bareRest? (most depth : Nat) : List Char → Option (List Char)
  | [] => if depth = 0 then some [] else none
  | c :: cs =>
    if c.toNat ≤ 0x20 then if depth = 0 then some (c :: cs) else none
    else if c = '(' then if most < depth then none else bareRest? most (depth + 1) cs
    else if c = ')' then if depth = 0 then some (c :: cs) else bareRest? most (depth - 1) cs
    else if c = '\\' then
      match cs with
      | d :: rest =>
        if Text.isAsciiPunctuation d then bareRest? most depth rest
        else bareRest? most depth (d :: rest)
      | [] => if depth = 0 then some [] else none
    else bareRest? most depth cs

/-- The text after a destination. -/
def destinationRest? (most : Nat) (cs : List Char) : Option (List Char) :=
  match cs with
  | '<' :: rest => pointedRest? rest
  | _ => bareRest? most 0 cs

/-- What closes a title that a character opens. -/
def titleEnd? (c : Char) : Option Char :=
  if c = '"' || c = '\'' then some c else if c = '(' then some ')' else none

/-- The text after a title, what opens it left out. -/
def titleRest? (opener closer : Char) : List Char → Option (List Char)
  | [] => none
  | c :: cs =>
    if c = closer then some cs
    else if c = opener then none
    else if c = '\\' then
      match cs with
      | d :: rest =>
        if Text.isAsciiPunctuation d then titleRest? opener closer rest
        else titleRest? opener closer (d :: rest)
      | [] => none
    else titleRest? opener closer cs

/-- The text after blanks with at most one line ending. -/
def separatorRest (enter : List Char → List Char) (cs : List Char) : List Char :=
  let cs := cs.drop (spacingLength cs)
  match endingLength? cs with
  | some n => let cs := enter (cs.drop n); cs.drop (spacingLength cs)
  | none => cs

/-- The most parentheses that may be nested in the destination of an inline link. -/
def maxNesting : Nat := 32

/-- The text after the destination and title of an inline link in parentheses. -/
def inlineRest? (enter : List Char → List Char) (cs : List Char) : Option (List Char) :=
  match cs with
  | '(' :: cs =>
    (destinationRest? maxNesting (separatorRest enter cs)).bind fun cs ↦
      let cs := separatorRest enter cs
      let cs := match cs with
        | c :: rest =>
          match (titleEnd? c).bind fun closer ↦ titleRest? c closer rest with
          | some rest => separatorRest enter rest
          | none => cs
        | [] => cs
      match cs with
      | ')' :: rest => some rest
      | _ => none
  | _ => none

end FencedCode.Markdown.Link
