import FencedCode.Text.Numeral
import FencedCode.Toml

/-!
# Writing strings in TOML

A string is written in the kind of quotation marks that needs no escapes, if there is one: basic
before literal, on one line before over several. Escapes are used when nothing else will do.
-/

namespace FencedCode.Toml

/-- The ways to write a string. -/
inductive QuoteStyle
  | basic
  | literal
  | basicLines
  | literalLines
  deriving DecidableEq, Repr

/-- Length of the longest run of a character in a text, when a run of `n` of them came before. -/
def longestRunFrom (c : Char) (n : Nat) : List Char → Nat
  | [] => n
  | x :: xs => if x = c then longestRunFrom c (n + 1) xs else max n (longestRunFrom c 0 xs)

/-- Length of the longest run of a character in a text. -/
def longestRun (c : Char) (cs : List Char) : Nat := longestRunFrom c 0 cs

/-- Whether a character can be written in no string but by an escape. -/
def needsEscape (c : Char) : Bool :=
  (c.toNat < 0x20 && c != '\t' && c != '\n') || c.toNat == 0x7F

/-- Whether a character is written alike in every string. -/
def isSimple (c : Char) : Bool :=
  c.isAlphanum || c == '_' || c == '-' || c == '.' || c == '/' || c == ' ' || c == ':'

/-- How a string is written. -/
def quoteStyle (s : List Char) : QuoteStyle :=
  let singles := longestRun '\'' s
  let doubles := longestRun '"' s
  let control := s.any needsEscape
  let slash := s.contains '\\'
  let lines := s.contains '\n'
  if s.all isSimple then .basic
  else if !control && !slash && !lines && doubles = 0 then .basic
  else if !control && !lines && singles = 0 then .literal
  else if !control && !slash && doubles ≤ 2 then .basicLines
  else if !control && singles ≤ 2 then .literalLines
  else if lines then .basicLines
  else .basic

/-- A digit of base sixteen, in upper case. -/
def hexDigit (n : Nat) : Char := (Nat.digitChar (n % 16)).toUpper

/-- How a character is written in a basic string on one line. -/
def escapeChar (c : Char) : List Char :=
  if c = '"' then ['\\', '"']
  else if c = '\\' then ['\\', '\\']
  else if c = '\n' then ['\\', 'n']
  else if c = '\r' then ['\\', 'r']
  else if c = '\t' then ['\\', 't']
  else if c.toNat = 0x08 then ['\\', 'b']
  else if c.toNat = 0x0C then ['\\', 'f']
  else if c.toNat < 0x20 || c.toNat = 0x7F then
    ['\\', 'u', '0', '0', hexDigit (c.toNat / 16), hexDigit c.toNat]
  else [c]

/-- How a text is written in a basic string over several lines, after `run` quotation marks: line
feeds stand for themselves, and of three quotation marks in a row the third is escaped. -/
def escapeLines (run : Nat) : List Char → List Char
  | [] => []
  | c :: cs =>
    if c = '"' then
      if run = 2 then '\\' :: '"' :: escapeLines 0 cs else '"' :: escapeLines (run + 1) cs
    else if c = '\n' then '\n' :: escapeLines 0 cs
    else escapeChar c ++ escapeLines 0 cs

/-- The line feed that is put before a text of several lines, and does not count. -/
def firstEnding (s : List Char) : List Char := if s.contains '\n' then ['\n'] else []

/-- A string with its quotation marks. -/
def quote (s : List Char) : List Char :=
  match quoteStyle s with
  | .basic => '"' :: (s.flatMap escapeChar ++ ['"'])
  | .literal => '\'' :: (s ++ ['\''])
  | .basicLines => ['"', '"', '"'] ++ firstEnding s ++ escapeLines 0 s ++ ['"', '"', '"']
  | .literalLines => ['\'', '\'', '\''] ++ firstEnding s ++ s ++ ['\'', '\'', '\'']

/-- The blanks before an item that has a line of its own. -/
def itemIndent : List Char := [' ', ' ', ' ', ' ']

/-- An array of strings: on one line when it has one item at most, else with an item a line. -/
def writeStrings : List (List Char) → List Char
  | [] => ['[', ']']
  | [s] => '[' :: (quote s ++ [']'])
  | ss => '[' :: '\n' :: (ss.flatMap (fun s ↦ itemIndent ++ quote s ++ [',', '\n']) ++ [']'])

/-- A truth value. -/
def writeBool (b : Bool) : List Char := if b then "true".toList else "false".toList

/-- A line that gives a key a value. -/
def writeMember (key : String) (value : List Char) : List Char :=
  key.toList ++ [' ', '=', ' '] ++ value ++ ['\n']

end FencedCode.Toml
