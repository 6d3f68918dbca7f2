import FencedCode.Json
import FencedCode.Text.Numeral

/-!
# Reading JSON

The grammar of JSON without extensions: no comments, no trailing commas, no leading zeros, no
control characters inside strings, nothing but blanks around the one value of a text.
-/

namespace FencedCode.Json

/-- The blanks of JSON. -/
def isSpace (c : Char) : Bool := c == ' ' || c == '\n' || c == '\t' || c == '\r'

/-- A text without its leading blanks. -/
def skipSpace (cs : List Char) : List Char := cs.dropWhile isSpace

/-- The number written by four digits of base sixteen. -/
def hexValue4? (a b c d : Char) : Option Nat := do
  let a ← Text.digitValue? a
  let b ← Text.digitValue? b
  let c ← Text.digitValue? c
  let d ← Text.digitValue? d
  return ((a * 16 + b) * 16 + c) * 16 + d

/-- What an escape of one letter stands for. -/
def escaped? (c : Char) : Option Char :=
  if c = '"' || c = '\\' || c = '/' then some c
  else if c = 'b' then some (Char.ofNat 0x08)
  else if c = 'f' then some (Char.ofNat 0x0C)
  else if c = 'n' then some '\n'
  else if c = 'r' then some '\r'
  else if c = 't' then some '\t'
  else none

/-- Whether a code unit is the first of a surrogate pair. -/
def isHighSurrogate (n : Nat) : Bool := 0xD800 ≤ n && n < 0xDC00

/-- Whether a code unit is the second of a surrogate pair. -/
def isLowSurrogate (n : Nat) : Bool := 0xDC00 ≤ n && n < 0xE000

/-- The character of a surrogate pair. -/
def pairChar (high low : Nat) : Char :=
  Char.ofNat (0x10000 + (high - 0xD800) * 0x400 + (low - 0xDC00))

/-- A part of a string as it is written: a character, or the number of a `\u` escape. -/
inductive StringPart
  | char (c : Char)
  | unit (n : Nat)
  deriving DecidableEq, Repr

/-- The parts of a string up to its closing mark, and the text after it. -/
def readParts : List Char → Option (List StringPart × List Char)
  | [] => none
  | c :: cs =>
    if c = '"' then some ([], cs)
    else if c = '\\' then
      match cs with
      | [] => none
      | 'u' :: a :: b :: c :: d :: cs =>
        (hexValue4? a b c d).bind fun n ↦
          (readParts cs).map fun (ps, rest) ↦ (.unit n :: ps, rest)
      | e :: cs =>
        (escaped? e).bind fun x ↦ (readParts cs).map fun (ps, rest) ↦ (.char x :: ps, rest)
    else if c.toNat < 0x20 then none
    else (readParts cs).map fun (ps, rest) ↦ (.char c :: ps, rest)

/-- The text of a string, unless a surrogate is unpaired. -/
def joinParts : List StringPart → Option (List Char)
  | [] => some []
  | .char c :: ps => (joinParts ps).map (c :: ·)
  | .unit n :: .unit m :: ps =>
    if isHighSurrogate n then
      if isLowSurrogate m then (joinParts ps).map (pairChar n m :: ·) else none
    else if isLowSurrogate n then none
    else (joinParts (.unit m :: ps)).map (Char.ofNat n :: ·)
  | .unit n :: ps =>
    if isHighSurrogate n || isLowSurrogate n then none
    else (joinParts ps).map (Char.ofNat n :: ·)

/-- The inside of a string up to its closing mark, and the text after it. The inside is none when it
holds an unpaired surrogate. -/
def readString (cs : List Char) : Option (Option (List Char) × List Char) :=
  (readParts cs).map fun (ps, rest) ↦ (joinParts ps, rest)

/-- A fraction and its length; the fraction may be missing but not without digits. -/
def fractionLength? : List Char → Option Nat
  | '.' :: cs =>
    match (cs.takeWhile Char.isDigit).length with
    | 0 => none
    | n => some (n + 1)
  | _ => some 0

/-- The length of an exponent, which may be missing but not without digits. -/
def exponentLength? : List Char → Option Nat
  | c :: cs =>
    if c = 'e' || c = 'E' then
      let sign := match cs with
        | d :: _ => if d = '+' || d = '-' then 1 else 0
        | [] => 0
      match ((cs.drop sign).takeWhile Char.isDigit).length with
      | 0 => none
      | n => some (n + sign + 1)
    else some 0
  | [] => some 0

/-- A number and the text after it. -/
def readNumber (cs : List Char) : Option (Json × List Char) := do
  let sign := match cs with
    | '-' :: _ => 1
    | _ => 0
  let whole := (cs.drop sign).takeWhile Char.isDigit
  match whole with
  | [] => none
  | '0' :: _ :: _ => none
  | _ =>
    let rest := (cs.drop sign).dropWhile Char.isDigit
    let fraction ← fractionLength? rest
    let exponent ← exponentLength? (rest.drop fraction)
    let tail := rest.drop (fraction + exponent)
    if sign + fraction + exponent = 0 then return (.natural (Text.numeral 10 whole), tail)
    else return (.number (cs.take (cs.length - tail.length)), tail)

/-- A word and the text after it. -/
def readWord (word : List Char) (v : Json) (cs : List Char) : Option (Json × List Char) :=
  if word.isPrefixOf cs then some (v, cs.drop word.length) else none

/-- The object with the given members. -/
def objectOf (ms : List (Option (List Char) × Json)) : Json :=
  if ms.any (·.1.isNone) then .unpaired
  else .object (ms.filterMap fun (k, v) ↦ k.map (·, v))

mutual

/-- A value after leading blanks, and the text after it. -/
def readValue : Nat → List Char → Option (Json × List Char)
  | 0, _ => none
  | fuel + 1, cs =>
    match skipSpace cs with
    | [] => none
    | c :: cs =>
      if c = '\x7b' then
        match skipSpace cs with
        | '\x7d' :: rest => some (.object [], rest)
        | cs => (readMembers fuel cs).map fun (ms, rest) ↦ (objectOf ms, rest)
      else if c = '[' then
        match skipSpace cs with
        | ']' :: rest => some (.array [], rest)
        | cs => (readItems fuel cs).map fun (vs, rest) ↦ (.array vs, rest)
      else if c = '"' then
        (readString cs).map fun (s, rest) ↦ (s.elim .unpaired .string, rest)
      else if c = 't' then readWord "true".toList (.bool true) (c :: cs)
      else if c = 'f' then readWord "false".toList (.bool false) (c :: cs)
      else if c = 'n' then readWord "null".toList .null (c :: cs)
      else readNumber (c :: cs)

/-- The items of an array up to its closing bracket. -/
def readItems : Nat → List Char → Option (List Json × List Char)
  | 0, _ => none
  | fuel + 1, cs =>
    (readValue fuel cs).bind fun (v, cs) ↦
      match skipSpace cs with
      | ',' :: cs => (readItems fuel cs).map fun (vs, rest) ↦ (v :: vs, rest)
      | ']' :: rest => some ([v], rest)
      | _ => none

/-- The members of an object up to its closing brace; a name is none when it holds an unpaired
surrogate. -/
def readMembers : Nat → List Char → Option (List (Option (List Char) × Json) × List Char)
  | 0, _ => none
  | fuel + 1, cs =>
    match skipSpace cs with
    | '"' :: cs =>
      (readString cs).bind fun (k, cs) ↦
        match skipSpace cs with
        | ':' :: cs =>
          (readValue fuel cs).bind fun (v, cs) ↦
            match skipSpace cs with
            | ',' :: cs => (readMembers fuel cs).map fun (ms, rest) ↦ ((k, v) :: ms, rest)
            | '\x7d' :: rest => some ([(k, v)], rest)
            | _ => none
        | _ => none
    | _ => none

end

/-- The value of a text that is one value with blanks around it. -/
def read? (cs : List Char) : Option Json :=
  (readValue (cs.length + 1) cs).bind fun (v, rest) ↦
    if (skipSpace rest).isEmpty then some v else none

end FencedCode.Json
