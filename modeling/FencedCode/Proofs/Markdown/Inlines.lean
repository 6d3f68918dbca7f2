import FencedCode.Markdown.Event.OfText

/-!
# Constructs in running text

Running text holds emphasis, links and images and nothing else that is entered: settling brackets
and delimiters only wraps inlines in such constructs or makes plain text of them. So no code block
is entered in the events of running text.
-/

namespace FencedCode.Markdown

/-- Whether a construct stands in running text. -/
def Tag.isInline : Tag → Bool
  | emphasis | strong | strikethrough | link | image => true
  | _ => false

/-- A piece of running text in which all constructs are those of running text. -/
inductive Inline.Proper : Inline → Prop
  | text (value : List Char) (span : Span) : Proper (.text value span)
  | code (value : List Char) (span : Span) : Proper (.code value span)
  | html (value : List Char) (span : Span) : Proper (.html value span)
  | softBreak (span : Span) : Proper (.softBreak span)
  | hardBreak (backslash : Bool) (span : Span) : Proper (.hardBreak backslash span)
  | delimiters (run : Delimiters) : Proper (.delimiters run)
  | bracket (token : Token) (enabled : Bool) : Proper (.bracket token enabled)
  | construct {tag : Tag} {span : Span} {children : List Inline} (htag : tag.isInline = true)
      (h : ∀ i ∈ children, Proper i) : Proper (.construct tag span children)

/-- Pieces of running text, all of them proper. -/
def ProperInlines (is : List Inline) : Prop := ∀ i ∈ is, i.Proper

variable {is js : List Inline} {i : Inline} {x : InlineContext}

private theorem properInlines_nil : ProperInlines [] := by simp [ProperInlines]

private theorem properInlines_cons : ProperInlines (i :: is) ↔ i.Proper ∧ ProperInlines is :=
  List.forall_mem_cons

/-- Proper inlines may be put one after the other. -/
theorem ProperInlines.append (h : ProperInlines is) (h' : ProperInlines js) :
    ProperInlines (is ++ js) := fun i hi ↦ (List.mem_append.mp hi).elim (h i) (h' i)

/-- The reverse of proper inlines is proper. -/
theorem ProperInlines.reverse (h : ProperInlines is) : ProperInlines is.reverse :=
  fun i hi ↦ h i (List.mem_reverse.mp hi)

/-- A function that keeps inlines proper keeps a list of them so. -/
theorem ProperInlines.map (h : ProperInlines is) {f : Inline → Inline}
    (hf : ∀ i, i.Proper → (f i).Proper) : ProperInlines (is.map f) := by
  intro i hi
  obtain ⟨j, hj, rfl⟩ := List.mem_map.mp hi
  exact hf j (h j hj)

/-- So does a function that gives several inlines for one. -/
theorem ProperInlines.flatMap (h : ProperInlines is) {f : Inline → List Inline}
    (hf : ∀ i, i.Proper → ProperInlines (f i)) : ProperInlines (is.flatMap f) := by
  intro i hi
  obtain ⟨j, hj, hi⟩ := List.mem_flatMap.mp hi
  exact hf j (h j hj) i hi

/-! ## Brackets -/

private theorem Inline.proper_plain (t : Token) : (Inline.plain t).Proper := .text _ _

/-- Settling a bracket keeps an inline proper. -/
theorem Inline.Proper.settleBracket (h : i.Proper) : i.settleBracket.Proper := by
  cases h with
  | bracket token enabled => exact proper_plain token
  | construct htag h => exact .construct htag h
  | _ => constructor

/-- Disabling a link keeps an inline proper. -/
theorem Inline.Proper.disableLink (h : i.Proper) : i.disableLink.Proper := by
  cases h with
  | construct htag h => exact .construct htag h
  | _ => constructor

private theorem properInlines_of_codeSpan? {t : Token} {escaped : Bool} {ts rest : List Token}
    (h : codeSpan? x t escaped ts = some (is, rest)) : ProperInlines is := by
  unfold codeSpan? at h
  simp only at h
  generalize (if escaped then t.chars.length - 1 else t.chars.length) = n at h
  split at h
  · cases h
  · obtain ⟨⟨closer, rest⟩, -, hspan⟩ := Option.map_eq_some_iff.mp h
    simp only at hspan
    split at hspan
    · cases hspan
      exact properInlines_cons.mpr
        ⟨.text _ _, properInlines_cons.mpr ⟨.code _ _, properInlines_nil⟩⟩
    · cases hspan
      exact properInlines_cons.mpr ⟨.code _ _, properInlines_nil⟩

private theorem proper_of_angle? {t : Token} {ts rest : List Token}
    (h : angle? x t ts = some (i, rest)) :
    i.Proper := by
  unfold angle? at h
  split at h
  · cases h
  · split at h
    · simp only at h
      split at h
      · cases h
        exact .construct rfl (properInlines_cons.mpr ⟨.text _ _, properInlines_nil⟩)
      · cases h
    · obtain ⟨⟨value, rest'⟩, -, h⟩ := Option.bind_eq_some_iff.mp h
      obtain ⟨stop, -, h⟩ := Option.bind_eq_some_iff.mp h
      cases h
      exact .html _ _

/-- Inlines fall into those after the last open bracket and those before it. -/
private theorem ProperInlines.of_splitBracket {t : Token} {enabled : Bool} {inner outer : List Inline}
    (h : ProperInlines is) (hsplit : splitBracket is = some (inner, t, enabled, outer)) :
    ProperInlines inner ∧ ProperInlines outer := by
  fun_induction splitBracket is generalizing inner with
  | case1 => cases hsplit
  | case2 t enabled is =>
    cases hsplit
    exact ⟨properInlines_nil, (properInlines_cons.mp h).2⟩
  | case3 i is hi ih =>
    obtain ⟨hi, his⟩ := properInlines_cons.mp h
    obtain ⟨⟨inner', t', enabled', outer'⟩, hsplit', hsome⟩ := Option.map_eq_some_iff.mp hsplit
    cases hsome
    obtain ⟨hinner, houter⟩ := ih his hsplit'
    exact ⟨properInlines_cons.mpr ⟨hi, hinner⟩, houter⟩

/-- Closing a bracket keeps inlines proper. -/
theorem ProperInlines.closeBracket (h : ProperInlines is) (t : Token) (viable : Bool)
    (ts : List Token) : ProperInlines (closeBracket x is t viable ts).1 := by
  unfold Markdown.closeBracket
  split
  · exact properInlines_cons.mpr ⟨Inline.proper_plain t, h⟩
  · next inner opener enabled outer hsplit =>
    obtain ⟨hinner, houter⟩ := h.of_splitBracket hsplit
    have hfailed : ProperInlines (Inline.plain t :: (inner ++ Inline.plain opener :: outer)) :=
      properInlines_cons.mpr ⟨Inline.proper_plain t,
        hinner.append (properInlines_cons.mpr ⟨Inline.proper_plain opener, houter⟩)⟩
    simp only
    split
    · exact hfailed
    · split
      · exact hfailed
      · refine properInlines_cons.mpr ⟨.construct ?_ hinner.reverse, ?_⟩
        · split <;> rfl
        · split
          · exact houter
          · exact houter.map fun _ h ↦ h.disableLink

/-- Settling tokens adds proper inlines. -/
theorem ProperInlines.settle (h : ProperInlines is) (fuel : Nat) (ts : List Token) :
    ProperInlines (settle x fuel is ts) := by
  induction fuel generalizing is ts with
  | zero => exact h
  | succ fuel ih =>
    cases ts with
    | nil => exact h
    | cons t ts =>
      have hplain : ProperInlines (.plain t :: is) :=
        properInlines_cons.mpr ⟨Inline.proper_plain t, h⟩
      unfold Markdown.settle
      split
      · exact ih hplain ts
      · exact ih (properInlines_cons.mpr ⟨.text _ _, h⟩) ts
      · exact ih (properInlines_cons.mpr ⟨.softBreak _, h⟩) ts
      · exact ih (properInlines_cons.mpr ⟨.hardBreak _ _, h⟩) ts
      · exact ih (properInlines_cons.mpr ⟨.delimiters _, h⟩) ts
      · split
        · next hspan => exact ih ((properInlines_of_codeSpan? hspan).reverse.append h) _
        · exact ih hplain ts
      · split
        · next hangle => exact ih (properInlines_cons.mpr ⟨proper_of_angle? hangle, h⟩) _
        · exact ih hplain ts
      · exact ih (properInlines_cons.mpr ⟨.bracket _ _, h⟩) ts
      · exact ih (h.closeBracket t _ ts) _

/-! ## Delimiters -/

private theorem Delimiters.properInlines_plain (r : Delimiters) : ProperInlines r.plain := by
  intro i hi
  obtain ⟨k, -, rfl⟩ := List.mem_map.mp hi
  exact .text _ _

/-- Settling delimiters makes proper inlines. -/
theorem Inline.Proper.settleDelimiters (h : i.Proper) : ProperInlines i.settleDelimiters := by
  unfold Inline.settleDelimiters
  split
  · exact Delimiters.properInlines_plain _
  · exact properInlines_cons.mpr ⟨h, properInlines_nil⟩

/-- Settling the delimiters of one mark makes proper inlines. -/
theorem Inline.Proper.settleMark (h : i.Proper) (mark : Char) :
    ProperInlines (i.settleMark mark) := by
  unfold Inline.settleMark
  split
  · split
    · exact (Delimiters.properInlines_plain _).reverse
    · exact properInlines_cons.mpr ⟨h, properInlines_nil⟩
  · exact properInlines_cons.mpr ⟨h, properInlines_nil⟩

/-- Wrapping proper inlines gives proper ones. -/
theorem ProperInlines.wrap (h : ProperInlines is) (mark : Char) (n start stop : Nat) :
    ProperInlines (Inline.wrap mark n start stop is) := by
  have hone {tag tag' : Tag} {span : Span} {is : List Inline} (h : ProperInlines is)
      (htag : tag.isInline = true) (htag' : tag'.isInline = true) :
      ProperInlines [.construct (if mark = '~' then tag else tag') span is] := by
    refine properInlines_cons.mpr ⟨.construct ?_ h, properInlines_nil⟩
    split
    · exact htag
    · exact htag'
  fun_induction Inline.wrap mark n start stop is with
  | case1 => exact h
  | case2 => exact hone h rfl rfl
  | case3 n start stop is ih => exact ih (hone h rfl rfl)

private theorem ProperInlines.of_splitOpener {closer opener : Delimiters}
    {inner outer : List Inline}
    (h : ProperInlines is) (hsplit : splitOpener closer is = some (inner, opener, outer)) :
    ProperInlines inner ∧ ProperInlines outer := by
  fun_induction splitOpener closer is generalizing inner with
  | case1 => cases hsplit
  | case2 run is hmatches =>
    cases hsplit
    exact ⟨properInlines_nil, (properInlines_cons.mp h).2⟩
  | case3 run is hmatches ih =>
    obtain ⟨⟨inner', opener', outer'⟩, hsplit', hsome⟩ := Option.map_eq_some_iff.mp hsplit
    cases hsome
    obtain ⟨hinner, houter⟩ := ih (properInlines_cons.mp h).2 hsplit'
    exact ⟨properInlines_cons.mpr ⟨.delimiters run, hinner⟩, houter⟩
  | case4 i is hi ih =>
    obtain ⟨⟨inner', opener', outer'⟩, hsplit', hsome⟩ := Option.map_eq_some_iff.mp hsplit
    cases hsome
    obtain ⟨hi, his⟩ := properInlines_cons.mp h
    obtain ⟨hinner, houter⟩ := ih his hsplit'
    exact ⟨properInlines_cons.mpr ⟨hi, hinner⟩, houter⟩

/-- Matching a closer keeps inlines proper. -/
theorem ProperInlines.matchCloser (h : ProperInlines is) (fuel : Nat) (closer : Delimiters) :
    ProperInlines (matchCloser fuel is closer).1 := by
  induction fuel generalizing is closer with
  | zero => exact h
  | succ fuel ih =>
    unfold Markdown.matchCloser
    split
    · exact h
    · split
      · simp only
        split
        · exact h.flatMap fun _ hi ↦ hi.settleMark '~'
        · exact h
      · next inner opener outer hsplit =>
        obtain ⟨hinner, houter⟩ := h.of_splitOpener hsplit
        simp only
        apply ih
        refine ((hinner.reverse.flatMap fun _ hi ↦ hi.settleDelimiters).wrap _ _ _ _ |>.append
          ?_).append houter
        split
        · exact properInlines_cons.mpr ⟨.delimiters _, properInlines_nil⟩
        · exact properInlines_nil

/-- A proper inline may be added. -/
theorem ProperInlines.addInline (h : ProperInlines is) (hi : i.Proper) :
    ProperInlines (addInline is i) := by
  unfold Markdown.addInline
  split
  · next run =>
    have hout : ProperInlines (if run.closes then Markdown.matchCloser (run.count + 1) is run
        else (is, run)).1 := by
      split
      · exact h.matchCloser _ run
      · exact h
    simp only
    generalize (if run.closes then Markdown.matchCloser (run.count + 1) is run
      else (is, run)) = out at hout ⊢
    split
    · exact hout
    · split
      · exact properInlines_cons.mpr ⟨.delimiters _, hout⟩
      · exact (Delimiters.properInlines_plain _).reverse.append hout
  · exact properInlines_cons.mpr ⟨hi, h⟩

private theorem ProperInlines.foldl_addInline (h : ProperInlines is) (hjs : ProperInlines js) :
    ProperInlines (js.foldl Markdown.addInline is) := by
  induction js generalizing is with
  | nil => exact h
  | cons j js ih =>
    obtain ⟨hj, hjs⟩ := properInlines_cons.mp hjs
    exact ih (h.addInline hj) hjs

/-- Settling the last break keeps an inline proper. -/
theorem Inline.Proper.settleLastBreak (h : i.Proper) : i.settleLastBreak.Proper := by
  unfold Inline.settleLastBreak
  split
  · exact .text _ _
  · exact .softBreak _
  · exact h

/-- Settling a level keeps inlines proper. -/
theorem ProperInlines.settleLevel (h : ProperInlines is) : ProperInlines (settleLevel is) := by
  have hsettled : ProperInlines (is.map Inline.settleBracket) := h.map fun _ h ↦ h.settleBracket
  unfold Markdown.settleLevel
  simp only
  generalize is.map Inline.settleBracket = settled at hsettled ⊢
  split
  · refine (properInlines_nil.foldl_addInline ?_).reverse.flatMap fun _ h ↦ h.settleDelimiters
    have hreverse := hsettled.reverse
    split
    · exact properInlines_nil
    · next i is hcons =>
      rw [hcons] at hreverse
      obtain ⟨hi, his⟩ := properInlines_cons.mp hreverse
      exact (properInlines_cons.mpr ⟨hi.settleLastBreak, his⟩).reverse
  · exact hsettled

private theorem settleAllInside_eq_map (is : List Inline) :
    settleAllInside is = is.map Inline.settleInside := by
  induction is with
  | nil => rfl
  | cons i is ih => rw [settleAllInside, ih, List.map_cons]

/-- Settling the inside keeps an inline proper. -/
theorem Inline.Proper.settleInside (h : i.Proper) : i.settleInside.Proper := by
  induction h with
  | construct htag h ih =>
    rw [Inline.settleInside, settleAllInside_eq_map]
    apply Inline.Proper.construct htag
    apply ProperInlines.settleLevel
    intro i hi
    obtain ⟨j, hj, rfl⟩ := List.mem_map.mp hi
    exact ih j hj
  | _ => constructor

/-- What tokens are read as is proper. -/
theorem properInlines_inlinesOf (x : InlineContext) (ts : List Token) :
    ProperInlines (inlinesOf x ts) := by
  unfold inlinesOf
  rw [settleAllInside_eq_map]
  exact ((properInlines_nil.settle _ _).reverse.map fun _ h ↦ h.settleInside).settleLevel

/-! ## Events -/

private theorem ofInlines_eq_flatMap (is : List Inline) :
    Event.ofInlines is = is.flatMap Event.ofInline := by
  induction is with
  | nil => rfl
  | cons i is ih => rw [Event.ofInlines, ih, List.flatMap_cons]

/-- The tags that a proper inline enters are those of inlines. -/
theorem Inline.Proper.isInline_of_enter_mem (h : i.Proper) {tag : Tag} {span : Span}
    (hmem : .enter tag span ∈ Event.ofInline i) : tag.isInline = true := by
  induction h with
  | construct htag h ih =>
    rw [Event.ofInline, ofInlines_eq_flatMap] at hmem
    simp only [Event.surround, List.cons_append, List.mem_cons, List.mem_append, List.mem_flatMap,
      List.not_mem_nil, or_false, Event.enter.injEq, reduceCtorEq] at hmem
    rcases hmem with ⟨rfl, -⟩ | ⟨j, hj, hmem⟩
    · exact htag
    · exact ih j hj hmem
  | _ => simp [Event.ofInline] at hmem

/-- The constructs that are entered in the events of proper inlines stand in running text. -/
theorem isInline_of_enter_mem (h : ProperInlines is) {tag : Tag} {span : Span}
    (hmem : .enter tag span ∈ Event.ofInlines is) : tag.isInline = true := by
  rw [ofInlines_eq_flatMap] at hmem
  obtain ⟨i, hi, hmem⟩ := List.mem_flatMap.mp hmem
  exact (h i hi).isInline_of_enter_mem hmem

end FencedCode.Markdown
