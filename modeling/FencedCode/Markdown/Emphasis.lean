import FencedCode.Markdown.Inline

/-!
# Emphasis

What runs of delimiters mean. A run that closes is matched with the nearest run before it that
opens: the delimiters closest to the text are used first, two at a time for strong emphasis.
Delimiters that are matched with none are plain text, each on its own.
-/

namespace FencedCode.Markdown

namespace Delimiters

/-- Whether a run that closes can be matched with a run that opens. Tildes have to be as many on
both sides. When one of the runs can both open and close, the lengths of the two may not add up to a
multiple of three, unless both are one. -/
def matchesOpener (closer opener : Delimiters) : Bool :=
  opener.mark == closer.mark && (closer.mark != '~' || opener.length == closer.length) &&
    (!(closer.opens && closer.closes) && !(opener.opens && opener.closes) ||
      (closer.length + opener.length) % 3 != 0 || closer.length % 3 == 0)

/-- Delimiters as plain text. -/
def plain (r : Delimiters) : List Inline :=
  (List.range r.count).map fun i ↦ .text [r.mark] ⟨r.start + i, r.start + i + 1⟩

/-- The run without its last `n` delimiters. -/
def dropLast (r : Delimiters) (n : Nat) : Delimiters := { r with count := r.count - n }

/-- The run without its first `n` delimiters. -/
def dropFirst (r : Delimiters) (n : Nat) : Delimiters :=
  { r with start := r.start + n, count := r.count - n }

end Delimiters

namespace Inline

/-- Delimiters become plain text; anything else stays. -/
def settleDelimiters : Inline → List Inline
  | .delimiters run => run.plain
  | i => [i]

/-- Delimiters of a mark become plain text; anything else stays. -/
def settleMark (mark : Char) : Inline → List Inline
  | .delimiters run => if run.mark = mark then run.plain.reverse else [.delimiters run]
  | i => [i]

/-- Inlines between `n` delimiters of a mark on each side, the innermost ones being those before the
offset `start` and after the offset `stop`. -/
def wrap (mark : Char) : Nat → Nat → Nat → List Inline → List Inline
  | 0, _, _, inner => inner
  | 1, start, stop, inner =>
    [.construct (if mark = '~' then .strikethrough else .emphasis) ⟨start - 1, stop + 1⟩ inner]
  | n + 2, start, stop, inner =>
    wrap mark n (start - 2) (stop + 2)
      [.construct (if mark = '~' then .strikethrough else .strong) ⟨start - 2, stop + 2⟩ inner]

end Inline

/-- Inlines so far, last one first, cut at the last run that a closing run can be matched with:
those after it, the run, and those before it. -/
def splitOpener (closer : Delimiters) :
    List Inline → Option (List Inline × Delimiters × List Inline)
  | [] => none
  | .delimiters run :: is =>
    if closer.matchesOpener run then some ([], run, is)
    else (splitOpener closer is).map fun (inner, opener, outer) ↦
      (.delimiters run :: inner, opener, outer)
  | i :: is =>
    (splitOpener closer is).map fun (inner, opener, outer) ↦ (i :: inner, opener, outer)

/-- Match a closing run with runs among the inlines so far, `out`, which has the last one first;
says what is left of the run. A closing run of tildes that is matched with none ends all runs of
tildes before it. -/
def matchCloser : Nat → List Inline → Delimiters → List Inline × Delimiters
  | 0, out, closer => (out, closer)
  | fuel + 1, out, closer =>
    if closer.count = 0 then (out, closer)
    else
      match splitOpener closer out with
      | none =>
        (if closer.mark = '~' then out.flatMap (Inline.settleMark '~') else out, closer)
      | some (inner, opener, outer) =>
        let n := min opener.count closer.count
        let inner := inner.reverse.flatMap Inline.settleDelimiters
        let found := Inline.wrap closer.mark n (opener.start + opener.count) closer.start inner
        let left : List Inline :=
          if n < opener.count then [.delimiters (opener.dropLast n)] else []
        matchCloser fuel (found ++ left ++ outer) (closer.dropFirst n)

/-- The inlines so far, last one first, with one more. -/
def addInline (out : List Inline) : Inline → List Inline
  | .delimiters run =>
    let (out, run) := if run.closes then matchCloser (run.count + 1) out run else (out, run)
    if run.count = 0 then out
    else if run.opens then .delimiters run :: out
    else run.plain.reverse ++ out
  | i => i :: out

/-- Whether an inline is a run of delimiters. -/
def Inline.isDelimiters : Inline → Bool
  | .delimiters _ => true
  | _ => false

/-- A break that ends a level is none: its backslash is plain text, its blanks are dropped. -/
def Inline.settleLastBreak : Inline → Inline
  | .hardBreak true span => .text ['\\'] span
  | .hardBreak false span => .softBreak span
  | i => i

/-- The inlines of one level with the delimiters among them settled. -/
def settleLevel (is : List Inline) : List Inline :=
  let is := is.map Inline.settleBracket
  if is.any Inline.isDelimiters then
    let is := match is.reverse with
      | [] => []
      | i :: is => (i.settleLastBreak :: is).reverse
    (is.foldl addInline []).reverse.flatMap Inline.settleDelimiters
  else is

mutual

/-- An inline with the delimiters inside settled, level by level. -/
def Inline.settleInside : Inline → Inline
  | .construct tag span children => .construct tag span (settleLevel (settleAllInside children))
  | .text value span => .text value span
  | .code value span => .code value span
  | .html value span => .html value span
  | .softBreak span => .softBreak span
  | .hardBreak backslash span => .hardBreak backslash span
  | .delimiters run => .delimiters run
  | .bracket token enabled => .bracket token enabled

/-- Inlines with the delimiters inside them settled. -/
def settleAllInside : List Inline → List Inline
  | [] => []
  | i :: is => i.settleInside :: settleAllInside is

end

/-- The inlines that the tokens of a block are read as. -/
def inlinesOf (x : InlineContext) (tokens : List Token) : List Inline :=
  settleLevel (settleAllInside (settle x (tokens.length + 1) [] tokens).reverse)

end FencedCode.Markdown
