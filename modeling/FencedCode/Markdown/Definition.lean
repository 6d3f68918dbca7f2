import FencedCode.Markdown.Interrupt
import FencedCode.Markdown.Link

/-!
# Link reference definitions

A label, a colon, a destination and perhaps a title, each on the same line as what comes before or
on the next one. A definition does not run past the end of the paragraph that it could be.
-/

namespace FencedCode.Markdown.Definition

/-- The text of the next line of a definition, whose containers and up to four columns of blanks are
passed over; none when the line ends a paragraph. A line indented by four columns ends none. -/
def nextLine? (path : List Container) (underlines : Bool) (cs : List Char) : Option (List Char) :=
  let (continues, m) := lineStart path { rest := cs }
  let (missing, m) := m.take 4
  if missing = 0 then some m.rest
  else if interruptsParagraph path continues m.rest ||
      ((continues || underlines) && (underlineLength? m.rest).isSome)
  then none
  else some m.rest

/-- The text after blanks with at most one line ending, and whether there was one. -/
def space? (path : List Container) (cs : List Char) : Option (Bool × List Char) :=
  let cs := cs.drop (spacingLength cs)
  match endingLength? cs with
  | none => some (false, cs)
  | some n => do
    let cs ← nextLine? path true (cs.drop n)
    let cs := cs.drop (spacingLength cs)
    if (endingLength? cs).isSome then none else return (true, cs)

/-- The text after a title, what opens it left out. No line of it is blank. -/
def titleFrom? (path : List Container) (closer : Char) : Nat → List Char → Option (List Char)
  | 0, _ => none
  | fuel + 1, cs =>
    match cs with
    | [] => none
    | c :: rest =>
      if c = closer then some rest
      else if c = '\\' then titleFrom? path closer fuel (rest.drop 1)
      else if isEnding c then
        let next := afterContinuation path (cs.drop ((endingLength? cs).getD 1))
        if isBlankLine next then none else titleFrom? path closer fuel next
      else titleFrom? path closer fuel rest

/-- The text after a title that only blanks follow on its line. -/
def title? (path : List Container) (cs : List Char) : Option (List Char) :=
  match cs with
  | [] => none
  | c :: rest => do
    let closer ← Link.titleEnd? c
    let rest ← titleFrom? path closer rest.length rest
    if isBlankLine rest then return rest else none

/-- The definition at the start of a text: its label, and the text after it. -/
def read? (path : List Container) (cs : List Char) : Option (List Char × List Char) := do
  let (label, rest) ← Link.label? (nextLine? path false) cs
  match rest with
  | ':' :: rest =>
    let (_, start) ← space? path rest
    let stop ← Link.destinationRest? 1 start
    if stop.length = start.length then none
    match space? path stop with
    | none => return (label, stop)
    | some (below, next) =>
      if !below && next.length = stop.length then none
      match title? path next with
      | some rest => return (label, rest)
      | none => if below then return (label, stop) else none
  | _ => none

end FencedCode.Markdown.Definition
