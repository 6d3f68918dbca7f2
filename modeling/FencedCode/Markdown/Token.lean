import FencedCode.Markdown.Cursor
import FencedCode.Markdown.Entity
import FencedCode.Text.Blank
import FencedCode.Text.Bytes
import FencedCode.Text.Word

/-!
# Tokens of a line

The text of a line cut into runs of plain text and the characters that may mean something else:
delimiters of emphasis, runs of backticks, angle brackets, brackets, character references, and the
break to the next line. What they mean is settled later, when all tokens of a block are known.
-/

namespace FencedCode.Markdown

/-- What a token may turn out to be. -/
inductive TokenKind
  | text
  /-- A character reference and the text that it stands for. -/
  | reference (value : List Char)
  | softBreak
  /-- A line break that is kept, after blanks or a backslash. -/
  | hardBreak (backslash : Bool)
  /-- A run of delimiters, and whether it can open and close emphasis. -/
  | delimiters (mark : Char) (opens closes : Bool)
  /-- A run of backticks, and whether a backslash escapes the first. -/
  | ticks (escaped : Bool)
  | angle
  | openBracket (image : Bool)
  /-- A closing bracket, and whether it may end a reference to a link definition. -/
  | closeBracket (viable : Bool)
  deriving DecidableEq, Repr, Inhabited

/-- A token: its characters, where they start, and the text from there on. -/
structure Token where
  kind : TokenKind
  start : Nat
  chars : List Char
  source : List Char
  deriving Repr, Inhabited

namespace Token

/-- The offset after a token. -/
def stop (t : Token) : Nat := t.start + Text.byteLength t.chars

/-- The text after a token. -/
def rest (t : Token) : List Char := t.source.drop t.chars.length

/-- What is left of a token from an offset on. -/
def cut (t : Token) (offset : Nat) : Token :=
  if t.start < offset then
    { t with
      start := offset
      chars := Text.dropBytes (offset - t.start) t.chars
      source := Text.dropBytes (offset - t.start) t.source }
  else t

/-- The token of `n` characters at a cursor. -/
def ofCursor (kind : TokenKind) (c : Cursor) (n : Nat) : Token :=
  ⟨kind, c.offset, c.rest.take n, c.rest⟩

end Token

/-- Where a line is read: in running text or in a table cell, which a pipe ends. -/
inductive LineMode
  | running
  | cell
  deriving DecidableEq, Repr

/-- Whether a run of delimiters can open emphasis: it is not followed by a blank, and where it could
also end a word it is preceded by a blank or punctuation. A pipe before a table cell counts as a
blank, and so does one after it. -/
def canOpen (mark : Char) (length : Nat) (before after : Option Char) (mode : LineMode)
    (cellStart : Bool) : Bool :=
  match before, after with
  | _, none => false
  | before, some a =>
    if Text.isBlank a then false
    else
      match before with
      | none => true
      | some b =>
        if mode = .cell && cellStart && b = '|' then true
        else if mode = .cell && a = '|' then false
        else if mark = '*' && !Text.isPunctuation a then true
        else if mark = '~' && 1 < length then true
        else if mark = '~' && b = '~' && !Text.isPunctuation a then true
        else Text.isBlank b || Text.isPunctuation b

/-- Whether a run of delimiters can close emphasis, by the same rule with its ends exchanged. -/
def canClose (mark : Char) (length : Nat) (before after : Option Char) (mode : LineMode)
    (cellStart : Bool) : Bool :=
  match before, after with
  | none, _ => false
  | some b, after =>
    if Text.isBlank b then false
    else
      match after with
      | none => true
      | some a =>
        if mode = .cell && cellStart && b = '|' then false
        else if mode = .cell && a = '|' then true
        else if (mark = '*' || (mark = '~' && 1 < length)) && !Text.isPunctuation b then true
        else if mark = '~' && b = '~' then true
        else Text.isBlank a || Text.isPunctuation a

/-- Tokens of a line so far, last one first, and the run of plain text under way: where it starts
and its characters, last one first. -/
structure Lexing where
  tokens : List Token := []
  start : Cursor
  run : List Char := []

namespace Lexing

/-- The run of plain text made a token, unless it is empty; the next run starts at a cursor. -/
def flush (l : Lexing) (next : Cursor) : Lexing :=
  let tokens :=
    if l.run.isEmpty then l.tokens
    else ⟨.text, l.start.offset, l.run.reverse, l.start.rest⟩ :: l.tokens
  ⟨tokens, next, []⟩

/-- The run of plain text made a token without the blanks at its end. -/
def finish (l : Lexing) (next : Cursor) : Lexing :=
  { l with run := l.run.dropWhile isSpacing }.flush next

/-- A token of `n` characters at a cursor, after the run of plain text. -/
def push (l : Lexing) (kind : TokenKind) (c : Cursor) (n : Nat) : Lexing :=
  let l := l.flush (c.skip n)
  { l with tokens := .ofCursor kind c n :: l.tokens }

/-- One more character of plain text. -/
def keep (l : Lexing) (c : Char) : Lexing := { l with run := c :: l.run }

end Lexing

/-- A line read: its tokens, last one first, where reading ended, and the break to the next line if
the line has an ending. -/
structure LexedLine where
  tokens : List Token
  next : Cursor
  lineBreak : Option Token := none

/-- The line's ending at `c`, in running text: blanks before it, two or more of them, make a break
that is kept. -/
def endLine (l : Lexing) (c : Cursor) (length : Nat) : LexedLine :=
  let blanks := (l.run.takeWhile isSpacing).reverse
  let lexed := l.finish (c.skip length)
  let ending := c.rest.take length
  let width := Text.byteLength blanks
  let lineBreak : Token :=
    if 2 ≤ blanks.length then
      ⟨.hardBreak false, c.offset - width, blanks ++ ending, blanks ++ c.rest⟩
    else ⟨.softBreak, c.offset, ending, c.rest⟩
  ⟨lexed.tokens, c.skip length, some lineBreak⟩

/-- Read a line from a cursor on to its end; at most `fuel` steps. -/
def lexFrom (mode : LineMode) (origin : Nat) : Nat → Lexing → Cursor → LexedLine
  | 0, l, c => ⟨(l.finish c).tokens, c, none⟩
  | fuel + 1, l, c =>
    match c.rest with
    | [] => ⟨(l.finish c).tokens, c, none⟩
    | x :: rest =>
      if isEnding x then
        if mode = .cell then ⟨(l.finish c).tokens, c, none⟩
        else endLine l c ((endingLength? c.rest).getD 1)
      else if x = '\\' then
        match rest with
        | [] => lexFrom mode origin fuel (l.keep x) c.next
        | y :: more =>
          if Text.isAsciiPunctuation y then
            let l := l.flush c.next
            if y.toNat = 0x60 then
              let n := (rest.takeWhile (· == y)).length
              lexFrom mode origin fuel (l.push (.ticks true) c.next n) (c.next.skip n)
            else if mode = .cell && y = '\\' && more.head? = some '|' then
              lexFrom mode origin fuel ((l.flush c.next.next).keep '|') (c.skip 3)
            else lexFrom mode origin fuel (l.keep y) (c.skip 2)
          else if isEnding y && mode = .running then
            let n := (endingLength? rest).getD 1
            if (rest.drop n).isEmpty then lexFrom mode origin fuel (l.keep x) c.next
            else
              ⟨(l.flush c).tokens, c.skip (n + 1),
                some (.ofCursor (.hardBreak true) c (n + 1))⟩
          else lexFrom mode origin fuel (l.keep x) c.next
      else if x = '*' || x = '_' || x = '~' then
        let n := (c.rest.takeWhile (· == x)).length
        let after := (c.rest.drop n).head?
        let opens := canOpen x n c.before after mode (c.offset == origin)
        let closes := canClose x n c.before after mode (c.offset == origin)
        if (opens || closes) && (x ≠ '~' || n ≤ 2) then
          lexFrom mode origin fuel (l.push (.delimiters x opens closes) c n) (c.skip n)
        else
          lexFrom mode origin fuel { l with run := List.replicate n x ++ l.run } (c.skip n)
      else if x.toNat = 0x60 then
        let n := (c.rest.takeWhile (· == x)).length
        lexFrom mode origin fuel (l.push (.ticks false) c n) (c.skip n)
      else if x = '<' && rest.head? ≠ some '\\' then
        lexFrom mode origin fuel (l.push .angle c 1) c.next
      else if x = '!' && rest.head? = some '[' then
        lexFrom mode origin fuel (l.push (.openBracket true) c 2) (c.skip 2)
      else if x = '[' then lexFrom mode origin fuel (l.push (.openBracket false) c 1) c.next
      else if x = ']' then lexFrom mode origin fuel (l.push (.closeBracket true) c 1) c.next
      else if x = '&' then
        match reference? rest with
        | some (n, value) =>
          lexFrom mode origin fuel (l.push (.reference value) c (n + 1)) (c.skip (n + 1))
        | none => lexFrom mode origin fuel (l.keep x) c.next
      else if x = '|' && mode = .cell then ⟨(l.finish c).tokens, c, none⟩
      else lexFrom mode origin fuel (l.keep x) c.next

/-- Read the line at a cursor. -/
def lexLine (mode : LineMode) (c : Cursor) : LexedLine :=
  lexFrom mode c.offset (c.rest.length + 1) { start := c } c

end FencedCode.Markdown
