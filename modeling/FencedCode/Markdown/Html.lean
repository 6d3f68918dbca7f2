import FencedCode.Markdown.Cursor

/-!
# HTML in Markdown

What starts and ends a block of HTML, and the pieces of HTML that may stand inside a line: tags,
comments, declarations, processing instructions and character data.
-/

namespace FencedCode.Markdown.Html

/-- An ASCII letter. -/
def isLetter (c : Char) : Bool := c.isAlpha

/-- A text in which ASCII letters are lower case. -/
def lower (cs : List Char) : List Char := cs.map Char.toLower

/-- The tags whose content is not HTML. -/
def rawTags : List (List Char) :=
  ["pre".toList, "style".toList, "script".toList, "textarea".toList]

/-- The tags that start a block wherever they stand at the start of a line. -/
def blockTags : List String :=
  ["address", "article", "aside", "base", "basefont", "blockquote", "body", "caption", "center",
    "col", "colgroup", "dd", "details", "dialog", "dir", "div", "dl", "dt", "fieldset",
    "figcaption", "figure", "footer", "form", "frame", "frameset", "h1", "h2", "h3", "h4", "h5",
    "h6", "head", "header", "hr", "html", "iframe", "legend", "li", "link", "main", "menu",
    "menuitem", "nav", "noframes", "ol", "optgroup", "option", "p", "param", "search", "section",
    "summary", "table", "tbody", "td", "tfoot", "th", "thead", "title", "tr", "track", "ul"]

/-- The end tag of a block that starts with a raw tag; `cs` is the text after the angle bracket. -/
def rawTagEnd? (cs : List Char) : Option (List Char) :=
  (rawTags.find? fun tag ↦
    lower (cs.take tag.length) == tag &&
      match cs.drop tag.length with
      | [] => true
      | c :: _ => isSpacing c || isEnding c || c == '>').map fun tag ↦ '<' :: '/' :: (tag ++ ['>'])

/-- What ends a block of HTML that may hold blank lines, when the text after an angle bracket starts
such a block. -/
def blockEnd? (cs : List Char) : Option (List Char) :=
  match rawTagEnd? cs with
  | some stop => some stop
  | none =>
    if "!--".toList.isPrefixOf cs then some "-->".toList
    else if "?".toList.isPrefixOf cs then some "?>".toList
    else if "![CDATA[".toList.isPrefixOf cs then some "]]>".toList
    else
      match cs with
      | '!' :: c :: _ => if isLetter c then some ">".toList else none
      | _ => none

/-- Whether the text after an angle bracket starts with a block tag, opening or closing. -/
def startsBlockTag (cs : List Char) : Bool :=
  let cs := if "/".toList.isPrefixOf cs then cs.drop 1 else cs
  let name := cs.takeWhile Char.isAlphanum
  blockTags.contains (String.ofList (lower name)) &&
    match cs.drop name.length with
    | [] => true
    | c :: rest => isSpacing c || isEnding c || c == '>' || (c == '/' && ">".toList.isPrefixOf rest)

/-- Reading HTML under way: what was kept of the text, last character first, and what follows. Where
HTML spans lines, what continues the containers on a new line is passed over but not kept. -/
structure Reading where
  kept : List Char
  rest : List Char

/-- How HTML goes on after a line ending: the text after what continues the containers, or not at
all. -/
abbrev OnNewLine := Option (List Char → List Char)

namespace Reading

/-- One more character is kept. -/
def keep (r : Reading) : Reading :=
  match r.rest with
  | [] => r
  | c :: cs => ⟨c :: r.kept, cs⟩

/-- All characters up to the first that is not in a class are kept. -/
def keepWhile (p : Char → Bool) (r : Reading) : Reading :=
  ⟨(r.rest.takeWhile p).reverse ++ r.kept, r.rest.dropWhile p⟩

/-- A line ending is kept and the next line entered. -/
def newLine? (r : Reading) (onNewLine : OnNewLine) : Option Reading :=
  onNewLine.map fun enter ↦
    let n := (endingLength? r.rest).getD 0
    ⟨(r.rest.take n).reverse ++ r.kept, enter (r.rest.drop n)⟩

/-- Blanks and line endings are kept. -/
def spaces? (onNewLine : OnNewLine) : Nat → Reading → Option Reading
  | 0, r => some r
  | fuel + 1, r =>
    match r.rest with
    | [] => some r
    | c :: _ =>
      if isEnding c then (r.newLine? onNewLine).bind (spaces? onNewLine fuel)
      else if isSpacing c then spaces? onNewLine fuel r.keep
      else some r

/-- The inside of a quoted attribute value and the closing quote are kept. -/
def quoted? (onNewLine : OnNewLine) (quote : Char) : Nat → Reading → Option Reading
  | 0, _ => none
  | fuel + 1, r =>
    match r.rest with
    | [] => none
    | c :: _ =>
      if c = quote then some r.keep
      else if isEnding c then (r.newLine? onNewLine).bind (quoted? onNewLine quote fuel)
      else quoted? onNewLine quote fuel r.keep

/-- The characters of unquoted attribute values. -/
def isBare (c : Char) : Bool :=
  !(c == '\'' || c == '"' || c == ' ' || c == '=' || c == '>' || c == '<' || c == '`' || isEnding c)

/-- An attribute value is kept. -/
def value? (onNewLine : OnNewLine) (r : Reading) : Option Reading :=
  match r.rest with
  | [] => none
  | c :: _ =>
    if c = '"' || c = '\'' then r.keep.quoted? onNewLine c r.rest.length
    else if isBare c then some (r.keepWhile isBare)
    else none

/-- The characters that attribute names start with. -/
def isNameStart (c : Char) : Bool := isLetter c || c == '_' || c == ':'

/-- The characters inside attribute names. -/
def isNamePart (c : Char) : Bool := c.isAlphanum || c == '_' || c == '.' || c == ':' || c == '-'

/-- An attribute is kept, with its value if it has one. -/
def attribute? (onNewLine : OnNewLine) (r : Reading) : Option Reading :=
  match r.rest with
  | [] => none
  | c :: _ =>
    if isNameStart c then
      let named := r.keep.keepWhile isNamePart
      (named.spaces? onNewLine named.rest.length).bind fun spaced ↦
        match spaced.rest with
        | '=' :: _ =>
          let r := spaced.keep
          (r.spaces? onNewLine r.rest.length).bind (value? onNewLine)
        | _ => some named
    else none

/-- The attributes of an opening tag are kept, each after a blank, and the blanks after them. -/
def attributes? (onNewLine : OnNewLine) : Nat → Reading → Option Reading
  | 0, _ => none
  | fuel + 1, r =>
    (r.spaces? onNewLine r.rest.length).bind fun spaced ↦
      match spaced.rest with
      | [] => none
      | c :: _ =>
        if c = '/' || c = '>' then some spaced
        else if spaced.rest.length = r.rest.length then none
        else (spaced.attribute? onNewLine).bind (attributes? onNewLine fuel)

/-- The closing angle bracket is kept. -/
def close? (r : Reading) : Option Reading :=
  match r.rest with
  | '>' :: _ => some r.keep
  | _ => none

end Reading

/-- The tag at the start of a text: what is kept of it, and the text after it. -/
def tag? (onNewLine : OnNewLine) (cs : List Char) : Option (List Char × List Char) :=
  let named (r : Reading) : Option Reading :=
    match r.rest with
    | [] => none
    | c :: _ =>
      if isLetter c then some (r.keepWhile fun c ↦ c.isAlphanum || c == '-') else none
  let read := match cs with
    | '<' :: '/' :: rest =>
      (named ⟨['/', '<'], rest⟩).bind fun r ↦ (r.keepWhile isSpacing).close?
    | '<' :: rest =>
      (named ⟨['<'], rest⟩).bind fun r ↦
        (r.attributes? onNewLine (r.rest.length + 1)).bind fun r ↦
          match r.rest with
          | '/' :: _ => r.keep.close?
          | _ => r.close?
    | _ => none
  read.map fun r ↦ (r.kept.reverse, r.rest)

/-- Whether a line is a single tag with nothing but blanks after it. -/
def isTagLine (cs : List Char) : Bool :=
  (tag? none cs).any fun (_, rest) ↦ isBlankLine rest

/-- The text after the first place where `stop` is found. -/
def after? (stop cs : List Char) : Option (List Char) :=
  (indexOf? stop cs).map fun n ↦ cs.drop (n + stop.length)

/-- The text after a comment, a declaration or character data; `cs` is the text after the angle
bracket and the exclamation mark. A comment ends at the first end mark after its first hyphen,
character data at the first closing bracket, which must be the start of its end. -/
def markupRest? (cs : List Char) : Option (List Char) :=
  match cs with
  | '-' :: '-' :: _ => after? "-->".toList cs
  | '[' :: rest =>
    if "CDATA[".toList.isPrefixOf rest then
      let tail := (rest.drop 6).dropWhile (· != ']')
      let brackets := (tail.takeWhile (· == ']')).length
      match tail.drop brackets with
      | '>' :: rest => if 1 ≤ brackets then some rest else none
      | _ => none
    else none
  | c :: _ => if isLetter c then after? ">".toList cs else none
  | [] => none

/-- The piece of HTML at the start of a text, which starts with an angle bracket: what is kept of
it, and the text after it. -/
def inline? (enter : List Char → List Char) (cs : List Char) : Option (List Char × List Char) :=
  let whole (rest : List Char) := (cs.take (cs.length - rest.length), rest)
  match cs with
  | '<' :: '!' :: rest => (markupRest? rest).map whole
  | '<' :: '?' :: rest => (after? "?>".toList rest).map whole
  | _ => tag? (some enter) cs

end FencedCode.Markdown.Html
