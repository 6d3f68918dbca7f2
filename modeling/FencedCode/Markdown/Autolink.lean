/-!
# Autolinks

Addresses in angle brackets: a scheme, a colon and an address without blanks, or an electronic mail
address.
-/

namespace FencedCode.Markdown.Autolink

/-- Whether a text is a scheme: a letter and then letters, digits, points, hyphens or plus signs, 2
to 32 characters in all. -/
def isScheme (cs : List Char) : Bool :=
  match cs with
  | [] => false
  | c :: _ =>
    c.isAlpha && 2 ≤ cs.length && cs.length ≤ 32 &&
      cs.all fun c ↦ c.isAlphanum || c == '.' || c == '-' || c == '+'

/-- The address with a scheme at the start of a text, up to the closing angle bracket. -/
def uri? (cs : List Char) : Option (List Char) :=
  let scheme := cs.takeWhile (· != ':')
  let tail := (cs.drop (scheme.length + 1)).takeWhile fun c ↦
    0x20 < c.toNat && c != '<' && c != '>'
  let address := cs.take (scheme.length + 1 + tail.length)
  match cs.drop address.length with
  | '>' :: _ => if isScheme scheme then some address else none
  | _ => none

/-- The characters before the at sign of a mail address. -/
def isLocal (c : Char) : Bool :=
  c.isAlphanum || ".!#$%&'*+/=?^_`\x7b|\x7d~-".toList.contains c

/-- Whether a text is one label of a domain: letters, digits and hyphens, at most 63, no hyphen at
either end. -/
def isLabel (cs : List Char) : Bool :=
  !cs.isEmpty && cs.length ≤ 63 && cs.all (fun c ↦ c.isAlphanum || c == '-') &&
    cs.head? != some '-' && cs.getLast? != some '-'

/-- A text cut at its points. -/
def labels : List Char → List (List Char)
  | [] => [[]]
  | c :: cs =>
    if c = '.' then [] :: labels cs
    else
      match labels cs with
      | [] => [[c]]
      | l :: ls => (c :: l) :: ls

/-- The mail address at the start of a text, up to the closing angle bracket. -/
def mail? (cs : List Char) : Option (List Char) :=
  let name := cs.takeWhile isLocal
  match cs.drop name.length with
  | '@' :: rest =>
    let domain := rest.takeWhile fun c ↦ c.isAlphanum || c == '-' || c == '.'
    match rest.drop domain.length with
    | '>' :: _ =>
      if !name.isEmpty && (labels domain).all isLabel then some (name ++ '@' :: domain) else none
    | _ => none
  | _ => none

/-- The address at the start of a text, up to the closing angle bracket. -/
def address? (cs : List Char) : Option (List Char) := (uri? cs).orElse fun _ ↦ mail? cs

end FencedCode.Markdown.Autolink
