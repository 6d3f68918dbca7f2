import FencedCode.Toml.Quoted
import FencedCode.Toml.Scalar
import FencedCode.Toml.Table

/-!
# Reading TOML

The grammar of TOML: one statement a line, with comments and blank lines between them; values in
brackets and braces may take up several lines. A text is read as the members of its document, or not
at all.
-/

namespace FencedCode.Toml

/-- The text after blanks. -/
def skipSpace (cs : List Char) : List Char := cs.dropWhile isSpace

/-- The text after blanks, line endings and comments; none when a comment holds a control character
or a carriage return does not end a line. -/
def skipLines? (inComment : Bool) : List Char → Option (List Char)
  | [] => some []
  | c :: cs =>
    if c = '\n' then skipLines? false cs
    else if c = '\r' then if cs.head? = some '\n' then skipLines? false cs else none
    else if inComment then if isPlain c then skipLines? true cs else none
    else if isSpace c then skipLines? false cs
    else if c = '#' then skipLines? true cs
    else some (c :: cs)

/-- The text after the line of a statement and the blank lines and comments below it. Nothing else
may follow on the line. -/
def endLine? (cs : List Char) : Option (List Char) :=
  match skipSpace cs with
  | [] => some []
  | c :: cs => if c = '\n' || c = '\r' || c = '#' then skipLines? false (c :: cs) else none

/-- Whether a character may stand in a key without quotation marks. -/
def isKeyChar (c : Char) : Bool := c.isAlphanum || c == '_' || c == '-'

/-- A part of a key, and the text after it. -/
def readPart (cs : List Char) : Option (List Char × List Char) :=
  match cs with
  | '"' :: cs => readBasic cs
  | '\'' :: cs => readLiteral cs
  | cs =>
    match cs.takeWhile isKeyChar with
    | [] => none
    | part => some (part, cs.dropWhile isKeyChar)

/-- A key and the text after it and the blanks that follow. -/
def readKey : Nat → List Char → Option (Key × List Char)
  | 0, _ => none
  | fuel + 1, cs => do
    let (part, rest) ← readPart cs
    match skipSpace rest with
    | '.' :: rest =>
      let (key, rest) ← readKey fuel (skipSpace rest)
      return ({ key with path := part :: key.path }, rest)
    | rest => return ({ last := part }, rest)

/-- Whether a character may stand in a value without quotation marks. -/
def isScalarChar (c : Char) : Bool := isKeyChar c || c == '+' || c == '.' || c == ':'

/-- A value without quotation marks, and the text after it. A blank may stand between a date and a
time. -/
def readScalar (cs : List Char) : Option (Toml × List Char) :=
  let run := cs.takeWhile isScalarChar
  let run := match cs.drop run.length with
    | ' ' :: c :: rest =>
      if dateRest? run == some [] && c.isDigit then
        run ++ ' ' :: (c :: rest).takeWhile isScalarChar
      else run
    | _ => run
  (scalar? run).map fun v ↦ (v, cs.drop run.length)

mutual

/-- A value and the text after it. -/
def readValue : Nat → List Char → Option (Toml × List Char)
  | 0, _ => none
  | _ + 1, [] => none
  | fuel + 1, c :: cs =>
    if c = '"' || c = '\'' then (readQuoted (c :: cs)).map fun (s, rest) ↦ (.string s, rest)
    else if c = '[' then (readItems fuel cs).map fun (items, rest) ↦ (.array items, rest)
    else if c = '\x7b' then
      (readPairs fuel cs).bind fun (pairs, rest) ↦ (inlineTable pairs).map fun v ↦ (v, rest)
    else readScalar (c :: cs)

/-- The items of an array up to its closing bracket. The last one may have a comma after it. -/
def readItems : Nat → List Char → Option (List Toml × List Char)
  | 0, _ => none
  | fuel + 1, cs =>
    (skipLines? false cs).bind fun cs ↦
      match cs with
      | ']' :: rest => some ([], rest)
      | cs =>
        (readValue fuel cs).bind fun (v, rest) ↦
          (skipLines? false rest).bind fun rest ↦
            match rest with
            | ',' :: rest => (readItems fuel rest).map fun (vs, rest) ↦ (v :: vs, rest)
            | ']' :: rest => some ([v], rest)
            | _ => none

/-- A key with its value, and the text after it. -/
def readPair : Nat → List Char → Option ((Key × Toml) × List Char)
  | 0, _ => none
  | fuel + 1, cs =>
    (readKey cs.length cs).bind fun (key, rest) ↦
      match rest with
      | '=' :: rest => (readValue fuel (skipSpace rest)).map fun (v, rest) ↦ ((key, v), rest)
      | _ => none

/-- The keys and values of a table in braces up to the closing one. The last one may have a comma
after it. -/
def readPairs : Nat → List Char → Option (List (Key × Toml) × List Char)
  | 0, _ => none
  | fuel + 1, cs =>
    (skipLines? false cs).bind fun cs ↦
      match cs with
      | '\x7d' :: rest => some ([], rest)
      | cs =>
        (readPair fuel cs).bind fun (pair, rest) ↦
          (skipLines? false rest).bind fun rest ↦
            match rest with
            | ',' :: rest => (readPairs fuel rest).map fun (pairs, rest) ↦ (pair :: pairs, rest)
            | '\x7d' :: rest => some ([pair], rest)
            | _ => none

end

/-- A key in brackets, the opening ones left out, and the text after the closing ones. -/
def readHeader (closing : List Char) (cs : List Char) : Option (Key × List Char) := do
  let (key, rest) ← readKey cs.length (skipSpace cs)
  if closing.isPrefixOf rest then return (key, rest.drop closing.length) else none

/-- The statement at the start of a line, and the text after it. -/
def readStatement (cs : List Char) : Option (Statement × List Char) :=
  match cs with
  | '[' :: '[' :: cs => (readHeader [']', ']'] cs).map fun (key, rest) ↦ (.itemHeader key, rest)
  | '[' :: cs => (readHeader [']'] cs).map fun (key, rest) ↦ (.header key, rest)
  | cs => (readPair (cs.length + 2) cs).map fun ((key, v), rest) ↦ (.value key v, rest)

/-- The document after the statements of a text, which starts with one unless it is empty; at most
`fuel` statements. -/
def readStatements : Nat → Draft → List Char → Option Draft
  | 0, _, _ => none
  | _ + 1, d, [] => some d
  | fuel + 1, d, c :: cs => do
    let (statement, rest) ← readStatement (c :: cs)
    let d ← d.add statement
    let rest ← endLine? rest
    readStatements fuel d rest

/-- A text without a byte order mark at its start. -/
def dropByteOrderMark (cs : List Char) : List Char :=
  match cs with
  | c :: rest => if c.toNat = 0xFEFF then rest else cs
  | [] => []

/-- The members of the document that a text writes. -/
def read? (text : List Char) : Option Members := do
  let text ← skipLines? false (dropByteOrderMark text)
  let d ← readStatements (text.length + 1) {} text
  return d.members

end FencedCode.Toml
