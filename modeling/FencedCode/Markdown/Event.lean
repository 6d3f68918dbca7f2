/-!
# Events of a Markdown text

A Markdown text read from start to end: where constructs begin and end, and the pieces of text, code
and markup in between, each with the bytes that it takes up.
-/

namespace FencedCode.Markdown

/-- The bytes from one offset up to another. -/
structure Span where
  start : Nat
  stop : Nat
  deriving DecidableEq, Repr, Inhabited

/-- A construct that holds others. -/
inductive Tag
  | paragraph
  | heading
  | blockQuote
  /-- A code block between fences, with its info string. -/
  | fencedCode (info : List Char)
  | indentedCode
  | htmlBlock
  | list
  | item
  | table
  | tableHead
  | tableRow
  | tableCell
  | emphasis
  | strong
  | strikethrough
  | link
  | image
  deriving DecidableEq, Repr, Inhabited

/-- A step of reading a Markdown text. -/
inductive Event
  | enter (tag : Tag) (span : Span)
  /-- The innermost construct that was entered ends. -/
  | leave
  | text (value : List Char) (span : Span)
  | html (value : List Char) (span : Span)
  | inlineHtml (value : List Char) (span : Span)
  | code (value : List Char) (span : Span)
  | rule (span : Span)
  | hardBreak (span : Span)
  | softBreak (span : Span)
  deriving DecidableEq, Repr, Inhabited

end FencedCode.Markdown
