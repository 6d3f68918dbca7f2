import FencedCode.Toml

/-!
# Tables under construction

A document is built up by statements: a key with its value, or the header of a table that the keys
below it belong to. Nothing is named twice. A table that has a header of its own, or stands in
braces, is not changed by dotted keys from outside; one that exists only because something inside it
was named may still get its header.
-/

namespace FencedCode.Toml

/-- A key of one or more parts. -/
structure Key where
  path : List (List Char) := []
  last : List Char
  deriving DecidableEq, Repr

/-- The parts of a key. -/
def Key.parts (k : Key) : List (List Char) := k.path ++ [k.last]

/-- Members with a value for a key, which keeps its place when it is there. -/
def setMember (key : List Char) (value : Toml) : Members → Members
  | [] => [(key, value)]
  | (k, v) :: ms => if k = key then (k, value) :: ms else (k, v) :: setMember key value ms

/-- Members with a change to the table at a path, which is made when it is not there: by dotted
keys, or as the place of a header. The last one stands for an array of tables. None when something
else is in the way, or the change fails. -/
def changeTable (dotted : Bool) (change : Origin → Members → Option Members) :
    List (List Char) → Origin → Members → Option Members
  | [], origin, ms => change origin ms
  | k :: ks, _, ms =>
    match ms.lookup k with
    | none =>
      let made : Origin := if dotted then .dotted else .implied
      (changeTable dotted change ks made []).map fun inner ↦ setMember k (.table made inner) ms
    | some (.table origin inner) =>
      if origin = .inline || (dotted && origin = .header) then none
      else
        (changeTable dotted change ks origin inner).map fun inner ↦
          setMember k (.table origin inner) ms
    | some (.tables items) =>
      match items.getLast? with
      | some (.table origin inner) =>
        (changeTable dotted change ks origin inner).map fun inner ↦
          setMember k (.tables (items.dropLast ++ [.table origin inner])) ms
      | _ => none
    | some _ => none

/-- A member with a key that is not there yet. -/
def addMember (key : List Char) (value : Toml) (ms : Members) : Option Members :=
  if (ms.lookup key).isSome then none else some (ms ++ [(key, value)])

/-- A value under a key. A dotted key adds to tables that dotted keys have made. -/
def assign (key : Key) (value : Toml) (ms : Members) : Option Members :=
  changeTable true
    (fun origin ms ↦
      if key.path.isEmpty || origin = .dotted then addMember key.last value ms else none)
    key.path .header ms

/-- A table under a header. -/
def openTable (key : Key) (ms : Members) : Option Members :=
  changeTable false
    (fun _ ms ↦
      match ms.lookup key.last with
      | none => some (ms ++ [(key.last, .table .header [])])
      | some (.table .implied inner) => some (setMember key.last (.table .header inner) ms)
      | some _ => none)
    key.path .header ms

/-- One more table of an array under a header. -/
def openItem (key : Key) (ms : Members) : Option Members :=
  changeTable false
    (fun _ ms ↦
      match ms.lookup key.last with
      | none => some (ms ++ [(key.last, .tables [.table .header []])])
      | some (.tables items) =>
        some (setMember key.last (.tables (items ++ [.table .header []])) ms)
      | some _ => none)
    key.path .header ms

/-- A statement of a document. -/
inductive Statement
  | value (key : Key) (value : Toml)
  | header (key : Key)
  | itemHeader (key : Key)

/-- A document under construction: its members, and the table that keys belong to. -/
structure Draft where
  members : Members := []
  table : List (List Char) := []

/-- A document after one more statement. -/
def Draft.add (d : Draft) : Statement → Option Draft
  | .value key value =>
    (changeTable false (fun _ ms ↦ assign key value ms) d.table .header
      d.members).map fun members ↦ { d with members }
  | .header key =>
    (openTable key d.members).map fun members ↦ ⟨members, key.parts⟩
  | .itemHeader key =>
    (openItem key d.members).map fun members ↦ ⟨members, key.parts⟩

/-- The table in braces with given keys and values. -/
def inlineTable (pairs : List (Key × Toml)) : Option Toml :=
  (pairs.foldlM (fun ms pair ↦ assign pair.1 pair.2 ms) []).map (.table .inline)

end FencedCode.Toml
