import FencedCode.Proofs.Toml.Strings
import FencedCode.Toml.Reader

/-!
# Documents of single members

A document that gives each member a line of its own, under a key that needs no quotation marks, is
read as these members, in their order.
-/

namespace FencedCode.Toml

/-! ## Blanks -/

private theorem skipLines?_cons {c : Char} (h : c ∉ [' ', '\t', '\n', '\r', '#']) (cs : List Char) :
    skipLines? false (c :: cs) = some (c :: cs) := by
  simp only [List.mem_cons, List.not_mem_nil, or_false, not_or] at h
  obtain ⟨hblank, htab, hfeed, hreturn, hcomment⟩ := h
  simp [skipLines?, isSpace, hblank, htab, hfeed, hreturn, hcomment]

/-- Blank lines before a statement are skipped. -/
@[simp] theorem skipLines?_newline (cs : List Char) :
    skipLines? false ('\n' :: cs) = skipLines? false cs := by
  rw [skipLines?, if_pos rfl]

/-- Indents before an item are skipped. -/
@[simp] theorem skipLines?_itemIndent (cs : List Char) :
    skipLines? false (itemIndent ++ cs) = skipLines? false cs := by
  simp [itemIndent, skipLines?, isSpace]

private theorem skipLines?_quote (s rest : List Char) :
    skipLines? false (quote s ++ rest) = some (quote s ++ rest) := by
  obtain ⟨mark, cs, hs, rfl | rfl⟩ := exists_quote_eq s
  · rw [hs]
    exact skipLines?_cons (by decide) _
  · rw [hs]
    exact skipLines?_cons (by decide) _

/-! ## Values -/

/-- Whether a text is read as a value where a line ends behind it. -/
structure Writes (text : List Char) (v : Toml) : Prop where
  start : ∃ c cs, text = c :: cs ∧ isSpace c = false
  read {fuel : Nat} (h : text.length < fuel) (rest : List Char) :
    readValue fuel (text ++ '\n' :: rest) = some (v, '\n' :: rest)

private theorem readValue_quote (fuel : Nat) (s : List Char) {rest : List Char}
    (hdouble : rest.head? ≠ some '"') (hsingle : rest.head? ≠ some '\'') :
    readValue (fuel + 1) (quote s ++ rest) = some (.string s, rest) := by
  have hread := readQuoted_quote s hdouble hsingle
  obtain ⟨mark, cs, hs, hmark⟩ := exists_quote_eq s
  rw [hs, List.cons_append] at hread ⊢
  rw [readValue, if_pos (by simpa using hmark), hread]
  rfl

/-- A string is an item of an array, followed by a comma and more items or by the bracket. -/
private theorem readItems_quote (fuel : Nat) {s cs after : List Char}
    (h : skipLines? false cs = some (quote s ++ after)) (hdouble : after.head? ≠ some '"')
    (hsingle : after.head? ≠ some '\'') : readItems (fuel + 2) cs =
      (skipLines? false after).bind fun rest ↦
        match rest with
        | ',' :: rest => (readItems (fuel + 1) rest).map fun (vs, rest) ↦ (.string s :: vs, rest)
        | ']' :: rest => some ([.string s], rest)
        | _ => none := by
  have hread := readValue_quote fuel s hdouble hsingle
  rw [readItems, h, Option.bind_some]
  obtain ⟨mark, cs, hs, hmark⟩ := exists_quote_eq s
  rw [hs, List.cons_append] at hread ⊢
  split
  · next heq =>
    rw [(List.cons.inj heq).1] at hmark
    exact absurd hmark (by decide)
  · rw [hread]
    rfl

/-- The lines of an array that has one for each of its strings. -/
def itemLines (ss : List (List Char)) : List Char :=
  ss.flatMap fun s ↦ itemIndent ++ quote s ++ [',', '\n']

private theorem itemLines_cons (s : List Char) (ss : List (List Char)) :
    itemLines (s :: ss) = itemIndent ++ (quote s ++ ',' :: '\n' :: itemLines ss) := by
  simp [itemLines]

/-- Strings on lines of their own are read up to the bracket below them. -/
private theorem readItems_itemLines {ss : List (List Char)} {fuel : Nat}
    (hfuel : (itemLines ss).length < fuel) (rest : List Char) :
    readItems fuel ('\n' :: (itemLines ss ++ ']' :: rest)) = some (ss.map .string, rest) := by
  induction ss generalizing fuel with
  | nil =>
    obtain ⟨k, rfl⟩ := Nat.exists_eq_add_of_le' (Nat.zero_lt_of_lt hfuel)
    rfl
  | cons s ss ih =>
    rw [itemLines_cons] at hfuel ⊢
    simp only [List.length_append, List.length_cons] at hfuel
    obtain ⟨k, rfl⟩ := Nat.exists_eq_add_of_le' (show 2 ≤ fuel by omega)
    have htail := ih (show (itemLines ss).length < k + 1 by omega)
    have hskip : skipLines? false ('\n' :: (itemIndent ++ (quote s ++ ',' :: '\n' ::
        (itemLines ss ++ ']' :: rest)))) =
        some (quote s ++ ',' :: '\n' :: (itemLines ss ++ ']' :: rest)) := by
      rw [skipLines?_newline, skipLines?_itemIndent, skipLines?_quote]
    rw [List.append_assoc, List.append_assoc, List.cons_append, List.cons_append,
      readItems_quote k hskip (by simp) (by simp), skipLines?_cons (by decide), Option.bind_some]
    simp only [htail]
    rfl

/-- An array of strings is read as it was written. -/
theorem writes_writeStrings (ss : List (List Char)) :
    Writes (writeStrings ss) (.array (ss.map .string)) := by
  match ss with
  | [] =>
    refine ⟨⟨'[', _, rfl, rfl⟩, fun {fuel} h rest ↦ ?_⟩
    obtain ⟨k, rfl⟩ := Nat.exists_eq_add_of_le' (show 2 ≤ fuel from Nat.lt_of_succ_lt h)
    rfl
  | [s] =>
    refine ⟨⟨'[', _, rfl, rfl⟩, fun {fuel} h rest ↦ ?_⟩
    rw [writeStrings, List.length_cons, List.length_append, List.length_singleton] at h
    obtain ⟨k, rfl⟩ := Nat.exists_eq_add_of_le' (show 3 ≤ fuel by omega)
    rw [writeStrings, List.cons_append, List.append_assoc, readValue, if_neg (by decide),
      if_pos rfl, readItems_quote k (skipLines?_quote s _) (by simp) (by simp),
      List.singleton_append, skipLines?_cons (by decide)]
    rfl
  | s :: t :: ss =>
    refine ⟨⟨'[', _, rfl, rfl⟩, fun {fuel} h rest ↦ ?_⟩
    have hwritten : writeStrings (s :: t :: ss) =
      '[' :: '\n' :: (itemLines (s :: t :: ss) ++ [']']) := rfl
    rw [hwritten] at h ⊢
    simp only [List.length_cons, List.length_append] at h
    obtain ⟨k, rfl⟩ := Nat.exists_eq_add_of_le' (show 1 ≤ fuel by omega)
    have hread := readItems_itemLines (show (itemLines (s :: t :: ss)).length < k by omega)
      ('\n' :: rest)
    rw [List.cons_append, List.cons_append, List.append_assoc, List.singleton_append, readValue,
      if_neg (by decide), if_pos rfl, hread]
    rfl

/-- Booleans are read back. -/
theorem writes_writeBool (b : Bool) : Writes (writeBool b) (.boolean b) := by
  cases b with
  | true =>
    refine ⟨⟨'t', _, rfl, rfl⟩, fun {fuel} h rest ↦ ?_⟩
    obtain ⟨k, rfl⟩ := Nat.exists_eq_add_of_le' (Nat.zero_lt_of_lt h)
    rfl
  | false =>
    refine ⟨⟨'f', _, rfl, rfl⟩, fun {fuel} h rest ↦ ?_⟩
    obtain ⟨k, rfl⟩ := Nat.exists_eq_add_of_le' (Nat.zero_lt_of_lt h)
    rfl

/-! ## Keys -/

/-- Whether a key needs no quotation marks. -/
structure IsBare (key : String) : Prop where
  ne_nil : key.toList ≠ []
  all_isKeyChar : key.toList.all isKeyChar = true

/-- A bare key consists of the characters of keys. -/
theorem IsBare.isKeyChar {key : String} (h : IsBare key) {c : Char} (hc : c ∈ key.toList) :
    Toml.isKeyChar c = true := List.all_eq_true.mp h.all_isKeyChar c hc

private theorem ne_of_isKeyChar {c d : Char} (hc : isKeyChar c = true) (hd : isKeyChar d = false) :
    c ≠ d := by
  rintro rfl
  rw [hc] at hd
  cases hd

/-- A bare key has a first character. -/
theorem IsBare.exists_eq {key : String} (h : IsBare key) :
    ∃ c cs, key.toList = c :: cs ∧ Toml.isKeyChar c = true := by
  obtain ⟨c, cs, hkey⟩ := List.exists_cons_of_ne_nil h.ne_nil
  exact ⟨c, cs, hkey, h.isKeyChar (hkey ▸ List.mem_cons_self)⟩

private theorem readPart_bare {key : String} (h : IsBare key) {c : Char}
    (hc : Toml.isKeyChar c = false)
    (cs : List Char) : readPart (key.toList ++ c :: cs) = some (key.toList, c :: cs) := by
  have htake : (key.toList ++ c :: cs).takeWhile Toml.isKeyChar = key.toList := by
    rw [List.takeWhile_append_of_pos fun c ↦ h.isKeyChar, List.takeWhile_cons_of_neg (by simp [hc]),
      List.append_nil]
  have hdrop : (key.toList ++ c :: cs).dropWhile Toml.isKeyChar = c :: cs := by
    rw [List.dropWhile_append_of_pos fun c ↦ h.isKeyChar, List.dropWhile_cons_of_neg (by simp [hc])]
  obtain ⟨d, ds, hkey, hd⟩ := h.exists_eq
  rw [hkey, List.cons_append] at htake hdrop ⊢
  rw [readPart.eq_3, htake, hdrop]
  · exact fun _ heq ↦ ne_of_isKeyChar hd rfl (List.cons.inj heq).1
  · exact fun _ heq ↦ ne_of_isKeyChar hd rfl (List.cons.inj heq).1

private theorem readKey_bare {key : String} (h : IsBare key) (fuel : Nat) (cs : List Char) :
    readKey (fuel + 1) (key.toList ++ ' ' :: '=' :: cs) =
      some ({ last := key.toList }, '=' :: cs) := by
  rw [readKey, readPart_bare h rfl]
  rfl

/-! ## Lines -/

/-- A line that gives a key a value. -/
structure Line where
  key : String
  written : List Char
  value : Toml
  bare : IsBare key
  writes : Writes written value

namespace Line

/-- The text of a line. -/
def text (l : Line) : List Char := writeMember l.key l.written

/-- The member that a line makes. -/
def member (l : Line) : List Char × Toml := (l.key.toList, l.value)

/-- A line is its key, the equals sign and its value. -/
theorem text_append (l : Line) (rest : List Char) :
    l.text ++ rest = l.key.toList ++ ' ' :: '=' :: ' ' :: (l.written ++ '\n' :: rest) := by
  simp [text, writeMember]

private theorem exists_text_append_eq (l : Line) (rest : List Char) :
    ∃ c cs, l.text ++ rest = c :: cs ∧ isKeyChar c = true := by
  obtain ⟨c, cs, hkey, hc⟩ := l.bare.exists_eq
  exact ⟨c, _, by rw [text_append, hkey]; rfl, hc⟩

private theorem skipLines?_text_append (l : Line) (rest : List Char) :
    skipLines? false (l.text ++ rest) = some (l.text ++ rest) := by
  obtain ⟨c, cs, htext, hc⟩ := l.exists_text_append_eq rest
  rw [htext]
  refine skipLines?_cons (fun hmem ↦ ?_) cs
  have hall : [' ', '\t', '\n', '\r', '#'].all (fun d ↦ !isKeyChar d) = true := by decide
  have hnot := List.all_eq_true.mp hall c hmem
  rw [hc] at hnot
  cases hnot

/-- A line is read as one statement, up to the line feed that ends it. -/
theorem readStatement_text_append (l : Line) (rest : List Char) :
    readStatement (l.text ++ rest) =
      some (.value { last := l.key.toList } l.value, '\n' :: rest) := by
  obtain ⟨c, cs, htext, hc⟩ := l.exists_text_append_eq rest
  have hbracket (ds : List Char) : l.text ++ rest ≠ '[' :: ds := by
    rw [htext]
    exact fun heq ↦ ne_of_isKeyChar hc rfl (List.cons.inj heq).1
  have hlength : (l.text ++ rest).length = cs.length + 1 := by rw [htext, List.length_cons]
  have hkey := readKey_bare l.bare cs.length (' ' :: (l.written ++ '\n' :: rest))
  have hskip : skipSpace (' ' :: (l.written ++ '\n' :: rest)) = l.written ++ '\n' :: rest := by
    obtain ⟨d, ds, hwritten, hd⟩ := l.writes.start
    rw [hwritten, skipSpace, List.dropWhile_cons_of_pos rfl, List.cons_append,
      List.dropWhile_cons_of_neg (by simp [hd])]
  have hfuel : l.written.length < (l.text ++ rest).length + 1 := by
    rw [text_append]
    simp only [List.length_append, List.length_cons]
    omega
  have hvalue := l.writes.read hfuel rest
  -- a line that starts with no bracket is a key with its value
  rw [readStatement.eq_3 _ (fun ds ↦ hbracket _) (fun ds ↦ hbracket _), readPair, hlength]
  rw [hlength] at hvalue
  rw [text_append, hkey, Option.bind_some]
  simp only [hskip, hvalue]
  rfl

end Line

/-! ## Documents -/

/-- A key that is not there yet is added to the members of a document without headers. -/
private theorem add_value {ms : Members} {key : List Char} (h : key ∉ ms.map Prod.fst) (v : Toml) :
    Draft.add ⟨ms, []⟩ (.value { last := key } v) = some ⟨ms ++ [(key, v)], []⟩ := by
  have hlookup : ms.lookup key = none := by
    refine List.lookup_eq_none_iff.mpr fun m hm ↦ bne_iff_ne.mpr fun heq ↦ h ?_
    rw [heq]
    exact List.mem_map_of_mem hm
  simp [Draft.add, changeTable, assign, addMember, hlookup]

private theorem endLine?_newline (cs : List Char) :
    endLine? ('\n' :: cs) = skipLines? false cs := by
  rw [endLine?, skipSpace, List.dropWhile_cons_of_neg (by decide)]
  exact skipLines?_newline cs

/-- The text of lines, one after the other. -/
def linesText (ls : List Line) : List Char := ls.flatMap Line.text

private theorem linesText_cons (l : Line) (ls : List Line) :
    linesText (l :: ls) = l.text ++ linesText ls := List.flatMap_cons

private theorem skipLines?_linesText (ls : List Line) :
    skipLines? false (linesText ls) = some (linesText ls) := by
  cases ls with
  | nil => rfl
  | cons l ls => exact l.skipLines?_text_append (linesText ls)

/-- Each line adds its member to the document that was read before it. -/
theorem readStatements_linesText {ls : List Line} {ms : Members} {fuel : Nat}
    (hkeys : ((ms ++ ls.map Line.member).map Prod.fst).Nodup)
    (hfuel : (linesText ls).length < fuel) :
    readStatements fuel ⟨ms, []⟩ (linesText ls) = some ⟨ms ++ ls.map Line.member, []⟩ := by
  induction ls generalizing ms fuel with
  | nil =>
    obtain ⟨k, rfl⟩ := Nat.exists_eq_add_of_le' (Nat.zero_lt_of_lt hfuel)
    rw [List.map_nil, List.append_nil]
    rfl
  | cons l ls ih =>
    have hmem : l.key.toList ∉ ms.map Prod.fst := fun hmem ↦ by
      rw [List.map_append, List.nodup_append] at hkeys
      exact hkeys.2.2 _ hmem _ List.mem_cons_self rfl
    have hread := l.readStatement_text_append (linesText ls)
    obtain ⟨c, cs, htext, -⟩ := l.exists_text_append_eq (linesText ls)
    obtain ⟨k, rfl⟩ := Nat.exists_eq_add_of_le' (Nat.zero_lt_of_lt hfuel)
    have hlt : (linesText ls).length < k := by
      have hlength := congrArg List.length (l.text_append (linesText ls))
      rw [← linesText_cons] at hlength
      simp only [List.length_append, List.length_cons] at hlength
      omega
    rw [List.map_cons, List.append_cons] at hkeys ⊢
    have hrest := ih hkeys hlt
    rw [linesText_cons]
    rw [htext] at hread ⊢
    rw [readStatements, hread]
    simp only [Option.bind_eq_bind, Option.bind_some, add_value hmem, endLine?_newline,
      skipLines?_linesText]
    exact hrest

private theorem dropByteOrderMark_linesText (ls : List Line) :
    dropByteOrderMark (linesText ls) = linesText ls := by
  cases ls with
  | nil => rfl
  | cons l ls =>
    obtain ⟨c, cs, htext, hc⟩ := l.exists_text_append_eq (linesText ls)
    have hmark : c.toNat ≠ 0xFEFF := fun heq ↦ by
      rw [← Char.ofNat_toNat c, heq] at hc
      exact absurd hc (by decide)
    rw [linesText_cons, htext]
    exact if_neg hmark

/-- A document of lines with different keys has the members that they make, in their order. -/
theorem read?_linesText {ls : List Line} (hkeys : ((ls.map Line.member).map Prod.fst).Nodup) :
    read? (linesText ls) = some (ls.map Line.member) := by
  have hread : readStatements _ {} (linesText ls) = some ⟨ls.map Line.member, []⟩ :=
    readStatements_linesText hkeys (Nat.lt_succ_self _)
  rw [read?, dropByteOrderMark_linesText, skipLines?_linesText]
  simp only [Option.bind_eq_bind, Option.bind_some, hread]
  rfl

end FencedCode.Toml
