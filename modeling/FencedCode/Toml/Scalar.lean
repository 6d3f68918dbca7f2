import FencedCode.Text.Numeral
import FencedCode.Toml

/-!
# Scalars of TOML

Booleans, numbers, dates and times, all written without quotation marks. Digits may be parted by
single underscores; a number in base ten has no leading zeros.
-/

namespace FencedCode.Toml

/-- The digits of a numeral without the underscores between them. -/
def digits? (isDigit : Char → Bool) (cs : List Char) : Option (List Char) :=
  let groups := cs.splitOnP (· == '_')
  if groups.all fun g ↦ !g.isEmpty && g.all isDigit then some groups.flatten else none

/-- The digits of a numeral in base ten. -/
def decimals? (cs : List Char) : Option (List Char) := digits? Char.isDigit cs

/-- The digits of a whole number in base ten. -/
def whole? (cs : List Char) : Option (List Char) :=
  (decimals? cs).bind fun ds ↦ if ds.head? = some '0' && 1 < ds.length then none else some ds

/-- Whether a number fits 128 bits, signed or not. -/
def fitsInteger (n : Int) : Bool := -Int.pow 2 127 ≤ n && n < Int.pow 2 128

/-- The whole number that a text writes, in base ten with a sign or in another base without. -/
def integer? (cs : List Char) : Option Int :=
  let other (base : Nat) (isDigit : Char → Bool) (ds : List Char) : Option Int :=
    (digits? isDigit ds).map fun ds ↦ (Text.numeral base ds : Int)
  let read := match cs with
    | '0' :: 'x' :: ds => other 16 Text.isHexDigit ds
    | '0' :: 'o' :: ds => other 8 (fun c ↦ '0' ≤ c && c ≤ '7') ds
    | '0' :: 'b' :: ds => other 2 (fun c ↦ c == '0' || c == '1') ds
    | '+' :: ds => (whole? ds).map fun ds ↦ (Text.numeral 10 ds : Int)
    | '-' :: ds => (whole? ds).map fun ds ↦ -(Text.numeral 10 ds : Int)
    | ds => (whole? ds).map fun ds ↦ (Text.numeral 10 ds : Int)
  read.bind fun n ↦ if fitsInteger n then some n else none

/-- A text without a sign at its start. -/
def dropSign (cs : List Char) : List Char :=
  match cs with
  | '+' :: cs => cs
  | '-' :: cs => cs
  | cs => cs

/-- The power of ten that an exponent stands for; zero when there is none. -/
def exponent? (cs : List Char) : Option Int :=
  match cs with
  | [] => some 0
  | e :: cs =>
    if e = 'e' || e = 'E' then
      (decimals? (dropSign cs)).map fun ds ↦
        let n : Int := Text.numeral 10 ds
        if cs.head? = some '-' then -n else n
    else none

/-- The digits and underscores at the start of a text. -/
def digitRun (cs : List Char) : List Char := cs.takeWhile fun c ↦ c.isDigit || c == '_'

/-- The digits of a decimal number without a sign, and the power of ten that the last of them
counts; there is a fraction or an exponent. -/
def decimal? (cs : List Char) : Option (List Char × Int) := do
  let run := digitRun cs
  let whole ← whole? run
  match cs.drop run.length with
  | [] => none
  | '.' :: rest =>
    let run := digitRun rest
    let fraction ← decimals? run
    let power ← exponent? (rest.drop run.length)
    return (whole ++ fraction, power - fraction.length)
  | rest =>
    let power ← exponent? rest
    return (whole, power)

/-- The least number that is rounded to no finite number of 64 bits. -/
def overflowBound : Nat := Nat.pow 2 1024 - Nat.pow 2 970

/-- Whether the number with given digits, the last of which counts a power of ten, is finite when it
is rounded to 64 bits. -/
def isFinite (ds : List Char) (power : Int) : Bool :=
  let ds := ds.dropWhile (· == '0')
  let magnitude := power + ds.length
  if ds.isEmpty || magnitude < 300 then true
  else if 320 < magnitude then false
  else if 0 ≤ power then Text.numeral 10 ds * Nat.pow 10 power.toNat < overflowBound
  else Text.numeral 10 ds < overflowBound * Nat.pow 10 (-power).toNat

/-- Whether a text writes a floating-point number. -/
def isFloat (cs : List Char) : Bool :=
  let unsigned := dropSign cs
  unsigned == ['i', 'n', 'f'] || unsigned == ['n', 'a', 'n'] ||
    (decimal? unsigned).any fun (ds, power) ↦ isFinite ds power

/-- A number of two digits at the start of a text, and the text after it. -/
def twoDigits? : List Char → Option (Nat × List Char)
  | a :: b :: cs => if a.isDigit && b.isDigit then some (Text.numeral 10 [a, b], cs) else none
  | _ => none

/-- The text after a given character. -/
def after? (c : Char) : List Char → Option (List Char)
  | x :: cs => if x = c then some cs else none
  | [] => none

/-- Number of days of a month. -/
def daysIn (year month : Nat) : Nat :=
  if month = 2 then if (year % 4 = 0 && year % 100 ≠ 0) || year % 400 = 0 then 29 else 28
  else if month = 4 || month = 6 || month = 9 || month = 11 then 30
  else 31

/-- The text after a date. -/
def dateRest? (cs : List Char) : Option (List Char) := do
  let (century, cs) ← twoDigits? cs
  let (year, cs) ← twoDigits? cs
  let (month, cs) ← twoDigits? (← after? '-' cs)
  let (day, cs) ← twoDigits? (← after? '-' cs)
  if 1 ≤ month && month ≤ 12 && 1 ≤ day && day ≤ daysIn (100 * century + year) month then
    return cs
  else none

/-- The text after a time of hours and minutes, perhaps with seconds and a fraction of them. -/
def timeRest? (cs : List Char) : Option (List Char) := do
  let (hour, cs) ← twoDigits? cs
  let (minute, cs) ← twoDigits? (← after? ':' cs)
  if 23 < hour || 59 < minute then none
  match cs with
  | ':' :: cs =>
    let (second, cs) ← twoDigits? cs
    if 60 < second then none
    match cs with
    | '.' :: cs =>
      if cs.head?.any Char.isDigit then return cs.dropWhile Char.isDigit else none
    | cs => return cs
  | cs => return cs

/-- Whether a text is the distance of a time from the standard time, or nothing. -/
def isOffset (cs : List Char) : Bool :=
  let distance (cs : List Char) : Bool :=
    match twoDigits? cs with
    | some (hour, ':' :: cs) =>
      match twoDigits? cs with
      | some (minute, []) => hour ≤ 23 && minute ≤ 59
      | _ => false
    | _ => false
  match cs with
  | [] => true
  | ['Z'] => true
  | ['z'] => true
  | '+' :: cs => distance cs
  | '-' :: cs => distance cs
  | _ => false

/-- Whether a text writes a date, a time, or a date and a time. -/
def isDateTime (cs : List Char) : Bool :=
  match dateRest? cs with
  | some [] => true
  | some (c :: cs) =>
    (c == 'T' || c == 't' || c == ' ') && (timeRest? cs).any isOffset
  | none => timeRest? cs == some []

/-- The value that a text without quotation marks writes. -/
def scalar? (cs : List Char) : Option Toml :=
  if cs = "true".toList then some (.boolean true)
  else if cs = "false".toList then some (.boolean false)
  else
    match integer? cs with
    | some n => some (.integer n)
    | none =>
      if isFloat cs then some (.float cs)
      else if isDateTime cs then some (.dateTime cs)
      else none

end FencedCode.Toml
