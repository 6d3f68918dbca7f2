import FencedCode.Markdown.Autolink
import FencedCode.Markdown.Container
import FencedCode.Markdown.Event
import FencedCode.Markdown.Html
import FencedCode.Markdown.Link
import FencedCode.Markdown.Token

/-!
# Inlines

What the tokens of a block mean. Code spans, HTML, autolinks and links are settled from left to
right, each taking the tokens that it covers. Runs of delimiters are left for the emphasis of each
level.
-/

namespace FencedCode.Markdown

/-- A run of delimiters: the character, where the run starts, how many of it are left, how long it
was at first, and what it can do. -/
structure Delimiters where
  mark : Char
  start : Nat
  count : Nat
  length : Nat
  opens : Bool
  closes : Bool
  deriving DecidableEq, Repr, Inhabited

/-- A piece of running text. -/
inductive Inline
  | text (value : List Char) (span : Span)
  | code (value : List Char) (span : Span)
  | html (value : List Char) (span : Span)
  | softBreak (span : Span)
  | hardBreak (backslash : Bool) (span : Span)
  /-- Delimiters that are not settled yet. -/
  | delimiters (run : Delimiters)
  /-- An opening bracket that is not settled yet, and whether it may still open a link. -/
  | bracket (token : Token) (enabled : Bool)
  | construct (tag : Tag) (span : Span) (children : List Inline)
  deriving Inhabited

namespace Inline

/-- The span of a token. -/
def spanOf (t : Token) : Span := ⟨t.start, t.stop⟩

/-- A token as plain text. -/
def plain (t : Token) : Inline := .text t.chars (spanOf t)

/-- An opening bracket becomes plain text; anything else stays. -/
def settleBracket : Inline → Inline
  | .bracket t _ => plain t
  | i => i

/-- An opening bracket of a link can open none any more. -/
def disableLink : Inline → Inline
  | .bracket t enabled =>
    .bracket t (enabled && t.kind == .openBracket true)
  | i => i

end Inline

/-- What the tokens of a block are read against: the containers around it, the end of the block, the
labels of the link definitions, and whether it is a table cell. -/
structure InlineContext where
  path : List Container
  stop : Nat
  labels : List (List Char)
  inTable : Bool

namespace InlineContext

/-- The text of the next line after what continues the containers. -/
def enter (x : InlineContext) (cs : List Char) : List Char := afterContinuation x.path cs

/-- The offset at which only `rest` is left of `source`, which starts at `start`, when that is
inside the block. -/
def offset? (x : InlineContext) (start : Nat) (source rest : List Char) : Option Nat :=
  let stop := start + Text.byteLength (source.take (source.length - rest.length))
  if stop ≤ x.stop then some stop else none

/-- The label at the start of `source`, which starts at `start`, and the offset after it. -/
def label? (x : InlineContext) (start : Nat) (source : List Char) :
    Option (List Char × Nat) := do
  let (label, rest) ← Link.label? (fun cs ↦ some (x.enter cs)) source
  let stop ← x.offset? start source rest
  return (label, stop)

end InlineContext

/-- The tokens from an offset on. -/
def tokensFrom (offset : Nat) (tokens : List Token) : List Token :=
  match tokens.dropWhile (·.stop ≤ offset) with
  | [] => []
  | t :: ts => t.cut offset :: ts

/-- The code of a code span: line endings become blanks and what continues the containers is
dropped; in a table an escaped pipe is a pipe. At most `fuel` characters. -/
def codeText (x : InlineContext) : Nat → List Char → List Char
  | 0, _ => []
  | _ + 1, [] => []
  | fuel + 1, c :: cs =>
    if isEnding c then
      let n := (endingLength? (c :: cs)).getD 1
      ' ' :: codeText x fuel (x.enter ((c :: cs).drop n))
    else if c = '\\' && x.inTable && cs.head? = some '|' then '|' :: codeText x fuel (cs.drop 1)
    else c :: codeText x fuel cs

/-- The text of a code span without one blank at each end, when it has both and is not blank. -/
def trimCode (cs : List Char) : List Char :=
  if cs.head? = some ' ' && cs.getLast? = some ' ' && cs.any (· != ' ') then
    (cs.drop 1).dropLast
  else cs

/-- The value of the code span whose text lies between two tokens. -/
def codeValue (x : InlineContext) (opener closer : Token) : List Char :=
  let raw := Text.takeBytes (closer.start - opener.stop) opener.rest
  trimCode (codeText x raw.length raw)

/-- The first run of exactly `n` backticks among tokens, and the tokens after it. -/
def closingTicks? (n : Nat) : List Token → Option (Token × List Token)
  | [] => none
  | t :: ts =>
    match t.kind with
    | .ticks _ => if t.chars.length = n then some (t, ts) else closingTicks? n ts
    | _ => closingTicks? n ts

/-- The code span that a run of backticks opens, and the tokens after it. A backslash takes the
first backtick of the run. -/
def codeSpan? (x : InlineContext) (t : Token) (escaped : Bool) (ts : List Token) :
    Option (List Inline × List Token) :=
  let n := if escaped then t.chars.length - 1 else t.chars.length
  if n = 0 then none
  else
    (closingTicks? n ts).map fun (closer, rest) ↦
      let value := codeValue x t closer
      if escaped then
        ([.text (t.chars.take 1) ⟨t.start, t.start + 1⟩,
          .code value ⟨t.start + 1, closer.stop⟩], rest)
      else ([.code value ⟨t.start, closer.stop⟩], rest)

/-- The autolink or the piece of HTML that an angle bracket starts, and the tokens after it. -/
def angle? (x : InlineContext) (t : Token) (ts : List Token) : Option (Inline × List Token) :=
  if ts.isEmpty then none
  else
    match Autolink.address? t.rest with
    | some address =>
      let stop := t.stop + Text.byteLength address
      if stop + 1 ≤ x.stop then
        some (.construct .link ⟨t.start, stop + 1⟩ [.text address ⟨t.stop, stop⟩],
          tokensFrom (stop + 1) ts)
      else none
    | none => do
      let (value, rest) ← Html.inline? x.enter t.source
      let stop ← x.offset? t.start t.source rest
      return (.html value ⟨t.start, stop⟩, tokensFrom stop ts)

/-- Inlines so far, last one first, cut at the last opening bracket that is not settled: those after
it, the bracket, and those before it. -/
def splitBracket : List Inline → Option (List Inline × Token × Bool × List Inline)
  | [] => none
  | .bracket t enabled :: is => some ([], t, enabled, is)
  | i :: is => (splitBracket is).map fun (inner, t, enabled, outer) ↦ (i :: inner, t, enabled, outer)

/-- The closing bracket that ends at an offset can end no reference any more. -/
def refuseReference (stop : Nat) : List Token → List Token
  | [] => []
  | t :: ts =>
    if stop ≤ t.stop then { t with kind := .closeBracket false } :: ts
    else t :: refuseReference stop ts

/-- What follows a closing bracket and makes a link of the text in the brackets. -/
inductive LinkTail
  /-- The link ends at an offset and these tokens follow. -/
  | found (stop : Nat) (rest : List Token)
  /-- There is no link; these tokens follow, in which a failed reference is marked. -/
  | missing (rest : List Token)

/-- The link that the text from an opening to a closing bracket is by its own label, when the tokens
`rest` follow it. -/
def shortcut (x : InlineContext) (opener closer : Token) (viable : Bool) (rest after : List Token) :
    LinkTail :=
  let bracketed := opener.source.drop (opener.chars.length - 1)
  match if viable then x.label? (opener.stop - 1) bracketed else none with
  | some (label, stop) =>
    if stop = closer.stop && x.labels.contains label then .found stop rest else .missing after
  | none => .missing after

/-- What follows the closing bracket `closer` of text that starts at `opener`. -/
def linkTail (x : InlineContext) (opener closer : Token) (viable : Bool) (ts : List Token) :
    LinkTail :=
  match (Link.inlineRest? x.enter closer.rest).bind (x.offset? closer.stop closer.rest) with
  | some stop => .found stop (tokensFrom stop ts)
  | none =>
    match ts with
    | [] => shortcut x opener closer viable ts ts
    | t :: _ =>
      if "[]".toList.isPrefixOf t.source then shortcut x opener closer viable (ts.drop 2) ts
      else
        match x.label? t.start t.source with
        | some (label, stop) =>
          if ts.all (·.stop < stop) then .missing ts
          else if x.labels.contains label then
            .found stop ((ts.dropWhile (·.stop < stop)).drop 1)
          else .missing (refuseReference stop ts)
        | none => shortcut x opener closer viable ts ts

/-- The inlines so far and the tokens to come after a closing bracket. -/
def closeBracket (x : InlineContext) (out : List Inline) (t : Token) (viable : Bool)
    (ts : List Token) : List Inline × List Token :=
  match splitBracket out with
  | none => (.plain t :: out, ts)
  | some (inner, opener, enabled, outer) =>
    let failed (ts : List Token) := (.plain t :: (inner ++ .plain opener :: outer), ts)
    if !enabled then failed ts
    else
      match linkTail x opener t viable ts with
      | .missing ts => failed ts
      | .found stop rest =>
        let image := opener.kind == .openBracket true
        let tag := if image then Tag.image else Tag.link
        let outer := if image then outer else outer.map Inline.disableLink
        (.construct tag ⟨opener.start, stop⟩ inner.reverse :: outer, rest)

/-- Settle tokens from left to right, all but emphasis; `out` holds the inlines so far, last one
first. -/
def settle (x : InlineContext) : Nat → List Inline → List Token → List Inline
  | 0, out, _ => out
  | _ + 1, out, [] => out
  | fuel + 1, out, t :: ts =>
    match t.kind with
    | .text => settle x fuel (.plain t :: out) ts
    | .reference value => settle x fuel (.text value (Inline.spanOf t) :: out) ts
    | .softBreak => settle x fuel (.softBreak (Inline.spanOf t) :: out) ts
    | .hardBreak backslash => settle x fuel (.hardBreak backslash (Inline.spanOf t) :: out) ts
    | .delimiters mark opens closes =>
      let n := t.chars.length
      settle x fuel (.delimiters ⟨mark, t.start, n, n, opens, closes⟩ :: out) ts
    | .ticks escaped =>
      match codeSpan? x t escaped ts with
      | some (is, rest) => settle x fuel (is.reverse ++ out) rest
      | none => settle x fuel (.plain t :: out) ts
    | .angle =>
      match angle? x t ts with
      | some (i, rest) => settle x fuel (i :: out) rest
      | none => settle x fuel (.plain t :: out) ts
    | .openBracket _ => settle x fuel (.bracket t true :: out) ts
    | .closeBracket viable =>
      let (out, ts) := closeBracket x out t viable ts
      settle x fuel out ts

end FencedCode.Markdown
