import FencedCode.Markdown.Container

/-!
# Table heads

A table starts with a line of cells between pipes and, under it, a line of hyphens with as many
columns.
-/

namespace FencedCode.Markdown

/-- A line cut at its pipes, but not at those that a backslash escapes. -/
def splitCells : List Char → List (List Char)
  | [] => [[]]
  | [c] => if c = '|' then [[], []] else [[c]]
  | c :: d :: cs =>
    if c = '|' then [] :: splitCells (d :: cs)
    else if c = '\\' then
      match splitCells cs with
      | [] => [[c, d]]
      | l :: ls => (c :: d :: l) :: ls
    else
      match splitCells (d :: cs) with
      | [] => [[c]]
      | l :: ls => (c :: l) :: ls

/-- Whether a cell holds blanks at most. -/
def isBlankCell (cs : List Char) : Bool := cs.all isSpacing

/-- Number of columns of a head line without its ending; none when it has no pipe. A pipe at either
end of the line has no column outside. -/
def headColumns? (line : List Char) : Option Nat :=
  let cells := splitCells line
  let first := if cells.head?.any List.isEmpty then 1 else 0
  let last := if cells.getLast?.any isBlankCell then 1 else 0
  if 2 ≤ cells.length then some (cells.length - first - last) else none

/-- A text cut at every pipe. -/
def splitPipes (line : List Char) : List (List Char) := line.splitOnP (· == '|')

/-- Number of columns of a line of hyphens, colons and pipes without its ending: at least one pipe,
a hyphen in every column that a pipe ends, and no more than three blanks before. -/
def delimiterColumns? (line : List Char) : Option Nat :=
  let indent := (line.takeWhile (· == ' ')).length
  let row := line.drop indent
  let cells := splitPipes (if row.head? = some '|' then row.drop 1 else row)
  let last := if (cells.getLast?.getD []).any (· != ' ') then 1 else 0
  if indent ≤ 3 && row.all (fun c ↦ c == ' ' || c == ':' || c == '-' || c == '|') &&
      row.contains '|' && row.contains '-' && cells.dropLast.all (·.contains '-')
  then some (cells.length - 1 + last)
  else none

/-- A line without its ending. -/
def lineText (cs : List Char) : List Char := cs.takeWhile fun c ↦ !isEnding c

/-- The text after a line and its ending. -/
def lineRest (cs : List Char) : List Char :=
  let rest := cs.drop (lineText cs).length
  rest.drop ((endingLength? rest).getD 0)

/-- The table head at the start of a text inside containers: its number of columns and the text
after its two lines. -/
def tableHead? (path : List Container) (cs : List Char) : Option (Nat × List Char) := do
  let columns ← headColumns? (lineText cs)
  let below := lineRest cs
  if below.isEmpty then none
  let (continues, m) := lineStart path { rest := below }
  let delimiters ← delimiterColumns? (lineText m.rest)
  if continues && delimiters = columns then return (columns, lineRest m.rest) else none

end FencedCode.Markdown
