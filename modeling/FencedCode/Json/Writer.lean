import FencedCode.Json

/-!
# Writing JSON

A value is written on one line, or with one item or member a line and two blanks for each level.
Strings escape the quotation mark, the backslash and the control characters below the blank, those
with a short form in their short form; all other characters stand for themselves.
-/

namespace FencedCode.Json

/-- A digit of base sixteen, in lower case. -/
def hexDigit (n : Nat) : Char := Nat.digitChar (n % 16)

/-- How a character is written inside a string. -/
def escapeChar (c : Char) : List Char :=
  if c = '"' then ['\\', '"']
  else if c = '\\' then ['\\', '\\']
  else if c = '\n' then ['\\', 'n']
  else if c = '\r' then ['\\', 'r']
  else if c = '\t' then ['\\', 't']
  else if c.toNat = 0x08 then ['\\', 'b']
  else if c.toNat = 0x0C then ['\\', 'f']
  else if c.toNat < 0x20 then ['\\', 'u', '0', '0', hexDigit (c.toNat / 16), hexDigit c.toNat]
  else [c]

/-- A text in quotation marks. -/
def quote (s : List Char) : List Char := '"' :: (s.flatMap escapeChar ++ ['"'])

/-- A number in base ten. -/
def digits (n : Nat) : List Char := Nat.toDigits 10 n

/-- The values that have no parts. -/
def writeAtom : Json → List Char
  | .bool true => "true".toList
  | .bool false => "false".toList
  | .natural n => digits n
  | .number written => written
  | .string s => quote s
  | _ => "null".toList

mutual

/-- A value on one line, without blanks. -/
def write : Json → List Char
  | .array items => '[' :: (writeItems items ++ [']'])
  | .object members => '\x7b' :: (writeMembers members ++ ['\x7d'])
  | atom => writeAtom atom

/-- Items with commas between them. -/
def writeItems : List Json → List Char
  | [] => []
  | [v] => v.write
  | v :: vs => v.write ++ ',' :: writeItems vs

/-- Members with commas between them. -/
def writeMembers : List (List Char × Json) → List Char
  | [] => []
  | [(k, v)] => quote k ++ ':' :: v.write
  | (k, v) :: ms => quote k ++ ':' :: (v.write ++ ',' :: writeMembers ms)

end

/-- A line feed and the blanks of a level. -/
def newline (level : Nat) : List Char := '\n' :: List.replicate (2 * level) ' '

mutual

/-- A value at a level of a layout with one item or member a line. -/
def writeAt (level : Nat) : Json → List Char
  | .array [] => ['[', ']']
  | .array items => '[' :: (writeItemsAt (level + 1) items ++ newline level ++ [']'])
  | .object [] => ['\x7b', '\x7d']
  | .object members => '\x7b' :: (writeMembersAt (level + 1) members ++ newline level ++ ['\x7d'])
  | atom => writeAtom atom

/-- Items on lines of their own. -/
def writeItemsAt (level : Nat) : List Json → List Char
  | [] => []
  | [v] => newline level ++ v.writeAt level
  | v :: vs => newline level ++ v.writeAt level ++ ',' :: writeItemsAt level vs

/-- Members on lines of their own. -/
def writeMembersAt (level : Nat) : List (List Char × Json) → List Char
  | [] => []
  | [(k, v)] => newline level ++ quote k ++ ':' :: ' ' :: v.writeAt level
  | (k, v) :: ms =>
    newline level ++ quote k ++ ':' :: ' ' :: (v.writeAt level ++ ',' :: writeMembersAt level ms)

end

/-- A value with one item or member a line. -/
def pretty (v : Json) : List Char := v.writeAt 0

end FencedCode.Json
