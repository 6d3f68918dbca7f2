import FencedCode.Text.Numeral
import FencedCode.Toml

/-!
# Quoted strings of TOML

The four kinds of strings: basic ones with escapes and literal ones without, each on one line or
over several. A reader gives the text of a string from after its opening mark on, and the text after
its closing mark.
-/

namespace FencedCode.Toml

/-- Whether a character may stand for itself in comments and strings. -/
def isPlain (c : Char) : Bool := c == '\t' || (0x20 ≤ c.toNat && c.toNat != 0x7F)

/-- The character of a code, unless none has it. -/
def codeChar? (ds : List Char) : Option Char :=
  let n := Text.numeral 16 ds
  if ds.all Text.isHexDigit && n.isValidChar then some (Char.ofNat n) else none

/-- What an escape of one letter stands for. -/
def escaped? (c : Char) : Option Char :=
  if c = '"' || c = '\\' then some c
  else if c = 'b' then some (Char.ofNat 0x08)
  else if c = 't' then some '\t'
  else if c = 'n' then some '\n'
  else if c = 'f' then some (Char.ofNat 0x0C)
  else if c = 'r' then some '\r'
  else if c = 'e' then some (Char.ofNat 0x1B)
  else none

/-- How many digits of base sixteen an escape has after its letter. -/
def codeWidth (c : Char) : Nat :=
  if c = 'x' then 2 else if c = 'u' then 4 else if c = 'U' then 8 else 0

/-- The character of an escape after its backslash, and the text after it. -/
def escape? : List Char → Option (Char × List Char)
  | [] => none
  | c :: cs =>
    if codeWidth c = 0 then (escaped? c).map fun x ↦ (x, cs)
    else if cs.length < codeWidth c then none
    else (codeChar? (cs.take (codeWidth c))).map fun x ↦ (x, cs.drop (codeWidth c))

private theorem escape?_decreases {cs rest : List Char} {x : Char}
    (h : escape? cs = some (x, rest)) :
    rest.length < cs.length := by
  unfold escape? at h
  split at h
  · simp at h
  · next c cs =>
    split at h
    · obtain ⟨_, _, h⟩ := Option.map_eq_some_iff.1 h
      simp only [Prod.mk.injEq] at h
      simp [← h.2]
    · split at h
      · simp at h
      · obtain ⟨_, _, h⟩ := Option.map_eq_some_iff.1 h
        simp only [Prod.mk.injEq] at h
        rw [← h.2, List.length_drop, List.length_cons]
        omega

/-- A basic string on one line. -/
def readBasic (cs : List Char) : Option (List Char × List Char) :=
  match cs with
  | [] => none
  | c :: cs =>
    if c = '"' then some ([], cs)
    else if c = '\\' then
      match _h : escape? cs with
      | none => none
      | some (x, rest) => (readBasic rest).map fun (s, rest) ↦ (x :: s, rest)
    else if isPlain c then (readBasic cs).map fun (s, rest) ↦ (c :: s, rest)
    else none
termination_by cs.length
decreasing_by
  · have := escape?_decreases _h
    simp only [List.length_cons]
    omega
  · simp

/-- A literal string on one line. -/
def readLiteral : List Char → Option (List Char × List Char)
  | [] => none
  | c :: cs =>
    if c = '\'' then some ([], cs)
    else if isPlain c then (readLiteral cs).map fun (s, rest) ↦ (c :: s, rest)
    else none

/-- The text after a line ending at the start of a text. -/
def dropEnding : List Char → List Char
  | '\n' :: cs => cs
  | '\r' :: '\n' :: cs => cs
  | cs => cs

/-- The end of a string over several lines, after the first of the marks that close it: up to two
more marks than the three that close it belong to the string. -/
def closing? (mark : Char) (cs : List Char) : Option (List Char × List Char) :=
  let n := (cs.takeWhile (· == mark)).length
  if n < 2 then none
  else
    let kept := min (n - 2) 2
    some (List.replicate kept mark, cs.drop (kept + 2))

/-- A literal string over several lines. -/
def readLiteralLines : List Char → Option (List Char × List Char)
  | [] => none
  | c :: cs =>
    let keep (x : Char) := (readLiteralLines cs).map fun (s, rest) ↦ (x :: s, rest)
    if c = '\'' then (closing? c cs).or (keep c)
    else if c = '\r' then if cs.head? = some '\n' then readLiteralLines cs else none
    else if c = '\n' || isPlain c then keep c
    else none

/-- Whether a character is a blank of a line. -/
def isSpace (c : Char) : Bool := c == ' ' || c == '\t'

/-- Whether only blanks are left on a line. -/
def endsLine (cs : List Char) : Bool :=
  match cs.dropWhile isSpace with
  | '\n' :: _ => true
  | '\r' :: '\n' :: _ => true
  | _ => false

/-- The text after blanks and line endings. -/
def dropLines : List Char → List Char
  | [] => []
  | c :: cs => if isSpace c || c = '\n' || (c = '\r' && cs.head? = some '\n') then dropLines cs
    else c :: cs

private theorem length_dropLines_le (cs : List Char) : (dropLines cs).length ≤ cs.length := by
  induction cs with
  | nil => simp [dropLines]
  | cons c cs ih =>
    unfold dropLines
    split
    · simp only [List.length_cons]
      omega
    · simp

/-- A basic string over several lines. A backslash at the end of a line drops the line ending and
all blanks and line endings after it. -/
def readBasicLines (cs : List Char) : Option (List Char × List Char) :=
  match cs with
  | [] => none
  | c :: cs =>
    if c = '"' then
      match closing? c cs with
      | some closed => some closed
      | none => (readBasicLines cs).map fun (s, rest) ↦ (c :: s, rest)
    else if c = '\\' then
      if endsLine cs then readBasicLines (dropLines cs)
      else
        match _h : escape? cs with
        | none => none
        | some (x, rest) => (readBasicLines rest).map fun (s, rest) ↦ (x :: s, rest)
    else if c = '\r' then
      if cs.head? = some '\n' then readBasicLines cs else none
    else if c = '\n' || isPlain c then (readBasicLines cs).map fun (s, rest) ↦ (c :: s, rest)
    else none
termination_by cs.length
decreasing_by
  · simp
  · have := length_dropLines_le cs
    simp only [List.length_cons]
    omega
  · have := escape?_decreases _h
    simp only [List.length_cons]
    omega
  · simp
  · simp

/-- A string of any kind with its marks, and the text after it. -/
def readQuoted (cs : List Char) : Option (List Char × List Char) :=
  match cs with
  | '"' :: '"' :: '"' :: cs => readBasicLines (dropEnding cs)
  | '"' :: cs => readBasic cs
  | '\'' :: '\'' :: '\'' :: cs => readLiteralLines (dropEnding cs)
  | '\'' :: cs => readLiteral cs
  | _ => none

end FencedCode.Toml
