import FencedCode.Proofs.Node.Trees
import Mathlib.Data.List.Basic
import Mathlib.Data.List.Induction

/-!
# Which nodes the events of a text make

Every construct that is entered makes a node, and so does every piece of text, code or markup that
is not text of a code or HTML block. The main statement is that the nodes of a tree in document
order are those that the events make, one after the other, each as deep as constructs are open
around it, and that the value of a block is the text that comes while the block is innermost. Events
need not be balanced.
-/

namespace FencedCode

open Markdown (Event Span Tag)

/-! ## What events say about nodes -/

namespace Markdown

/-- Whether a construct is a block of code or HTML, which takes the text inside it for its own. -/
def Tag.isVerbatim : Tag → Bool
  | .fencedCode _ => true
  | .indentedCode => true
  | .htmlBlock => true
  | _ => false

/-- The text that an event brings for a block of code or HTML. -/
def Event.blockText? : Event → Option (List Char)
  | .text value _ => some value
  | .html value _ => some value
  | _ => none

/-- The constructs that are open after some events, the innermost first, each with the number of the
event that entered it. An end closes the innermost one, and nothing when none is open. -/
def openAfter (es : List Event) : List (Nat × Tag) :=
  es.zipIdx.foldl (fun opened (e, i) ↦
    match e with
    | .enter tag _ => (i, tag) :: opened
    | .leave => opened.tail
    | _ => opened) []

/-- The text that events bring while the construct that event number `i` entered is innermost. -/
def textInside (es : List Event) (i : Nat) : List Char :=
  es.zipIdx.flatMap fun (e, j) ↦
    if (openAfter (es.take j)).head?.map (·.1) = some i then e.blockText?.getD [] else []

/-- Whether an event after some others is text of a block of code or HTML. -/
def absorbed (es : List Event) (e : Event) : Bool :=
  e.blockText?.isSome && (openAfter es).head?.any (·.2.isVerbatim)

end Markdown

open Markdown (openAfter textInside absorbed)

namespace Node

/-- A node without the nodes inside it. -/
def bare (n : Node) : Node := { n with children := [] }

/-- The node that event number `i` makes, without the nodes inside it, and its depth: one more than
the number of constructs that are open there. The value of a block of code or HTML is the text that
comes while the block is innermost. -/
def madeBy? (x : LineIndex) (es : List Event) (i : Nat) : Option (Nat × Node) :=
  let before := es.take i
  let depth := (openAfter before).length + 1
  es[i]?.bind fun e ↦
    match e with
    | .enter tag span =>
      let n := ofTag x tag span
      some (depth, if tag.isVerbatim then { n with value := some (textInside es i) } else n)
    | .leave => none
    | .text value span =>
      if absorbed before e then none else some (depth, leaf x .text (some value) span)
    | .html value span =>
      if absorbed before e then none else some (depth, leaf x .html (some value) span)
    | .inlineHtml value span => some (depth, leaf x .html (some value) span)
    | .code value span => some (depth, leaf x .inlineCode (some value) span)
    | .rule span => some (depth, leaf x .thematicBreak none span)
    | .hardBreak span => some (depth, leaf x .break none span)
    | .softBreak _ => none

end Node

namespace Markdown

variable {es : List Event} {e : Event} {i : Nat} {tag : Tag}

private theorem openAfter_concat (es : List Event) (e : Event) : openAfter (es ++ [e]) =
    match e with
    | .enter tag _ => (es.length, tag) :: openAfter es
    | .leave => (openAfter es).tail
    | _ => openAfter es := by
  rw [openAfter, List.zipIdx_append, List.foldl_append, Nat.zero_add]
  rfl

/-- A construct that is open was entered by its event, with the constructs around it open there. -/
theorem entered_of_suffix_openAfter {opened : List (Nat × Tag)}
    (h : (i, tag) :: opened <:+ openAfter es) :
    (∃ span, es[i]? = some (.enter tag span)) ∧ openAfter (es.take i) = opened := by
  induction es using List.reverseRecOn with
  | nil => cases List.eq_nil_of_suffix_nil h
  | append_singleton es e ih =>
    have hkeep (h : (i, tag) :: opened <:+ openAfter es) :
        (∃ span, (es ++ [e])[i]? = some (.enter tag span)) ∧
          openAfter ((es ++ [e]).take i) = opened := by
      obtain ⟨⟨span, hspan⟩, hopened⟩ := ih h
      have hlt := (List.getElem?_eq_some_iff.mp hspan).1
      rw [List.getElem?_append_left hlt, List.take_append_of_le_length (Nat.le_of_lt hlt)]
      exact ⟨⟨span, hspan⟩, hopened⟩
    rw [openAfter_concat] at h
    cases e with
    | enter newTag span =>
      rcases List.suffix_cons_iff.mp h with heq | h
      · obtain ⟨⟨rfl, rfl⟩, rfl⟩ : (i = es.length ∧ tag = newTag) ∧ opened = openAfter es := by
          simpa using heq
        rw [List.getElem?_concat_length, List.take_left]
        exact ⟨⟨span, rfl⟩, rfl⟩
      · exact hkeep h
    | leave => exact hkeep (h.trans (List.tail_suffix _))
    | _ => exact hkeep h

private theorem entered_of_head?_openAfter (h : (openAfter es).head? = some (i, tag)) :
    ∃ span, es[i]? = some (.enter tag span) := by
  obtain ⟨opened, hopened⟩ := List.head?_eq_some_iff.mp h
  have hsuffix : (i, tag) :: opened <:+ openAfter es := ⟨[], hopened.symm⟩
  exact (entered_of_suffix_openAfter hsuffix).1

private theorem lt_length_of_mem_openAfter (h : (i, tag) ∈ openAfter es) : i < es.length := by
  obtain ⟨inner, outer, hsplit⟩ := List.append_of_mem h
  obtain ⟨⟨span, hspan⟩, -⟩ := entered_of_suffix_openAfter ⟨inner, hsplit.symm⟩
  exact (List.getElem?_eq_some_iff.mp hspan).1

private theorem textInside_concat (es : List Event) (e : Event) (i : Nat) :
    textInside (es ++ [e]) i =
    textInside es i ++
      if (openAfter es).head?.map (·.1) = some i then e.blockText?.getD [] else [] := by
  have htake : es.zipIdx.flatMap (fun (e', j) ↦
      if (openAfter ((es ++ [e]).take j)).head?.map (·.1) = some i then e'.blockText?.getD []
      else []) = textInside es i := by
    apply List.flatMap_congr
    rintro ⟨e', j⟩ hmem
    have hj := (List.mem_zipIdx' hmem).1
    dsimp only
    rw [List.take_append_of_le_length (Nat.le_of_lt hj)]
  rw [textInside, List.zipIdx_append, List.flatMap_append, htake]
  simp only [List.zipIdx_singleton, Nat.zero_add, List.flatMap_singleton, List.take_left]

/-- No text is inside a construct that is not entered yet. -/
private theorem textInside_eq_nil (h : es.length ≤ i + 1) : textInside es i = [] := by
  rw [textInside, List.flatMap_eq_nil_iff]
  rintro ⟨e, j⟩ hmem
  have hj := (List.mem_zipIdx' hmem).1
  apply if_neg
  intro hinner
  obtain ⟨⟨k, tag⟩, hhead, rfl⟩ := Option.map_eq_some_iff.mp hinner
  have hlt := lt_length_of_mem_openAfter (List.mem_of_head? hhead)
  rw [List.length_take] at hlt
  dsimp only at h
  omega

end Markdown

namespace Node

variable {x : LineIndex} {es : List Event} {e : Event} {i : Nat}

/-- A later event changes nothing about a node but the text inside it. -/
private theorem madeBy?_concat (hi : i < es.length)
    (htext : ∀ tag span, es[i]? = some (.enter tag span) → tag.isVerbatim = true →
      textInside (es ++ [e]) i = textInside es i) :
    madeBy? x (es ++ [e]) i = madeBy? x es i := by
  simp only [madeBy?]
  rw [List.getElem?_append_left hi, List.take_append_of_le_length (Nat.le_of_lt hi)]
  cases he : es[i]? with
  | none => rfl
  | some e' =>
    cases e' with
    | enter tag span =>
      cases htag : tag.isVerbatim with
      | false => simp [htag]
      | true => simp [htag, htext tag span he htag]
    | _ => rfl

/-- The node of a construct that was entered. -/
private theorem madeBy?_of_enter {tag : Tag} {span : Span} (h : es[i]? = some (.enter tag span)) :
    madeBy? x es i = some ((openAfter (es.take i)).length + 1,
      if tag.isVerbatim then { ofTag x tag span with value := some (textInside es i) }
      else ofTag x tag span) := by
  rw [madeBy?, h]
  rfl

/-- An event that is not taken for text of a block changes nothing about the nodes before it. -/
private theorem madeBy?_concat_of_not_absorbed (hi : i < es.length) (he : absorbed es e = false) :
    madeBy? x (es ++ [e]) i = madeBy? x es i := by
  apply madeBy?_concat hi
  intro tag span hevent htag
  rw [Markdown.textInside_concat]
  by_cases hinner : (openAfter es).head?.map (·.1) = some i
  · obtain ⟨⟨k, tag'⟩, hhead, rfl⟩ := Option.map_eq_some_iff.mp hinner
    obtain ⟨span', hspan'⟩ := Markdown.entered_of_head?_openAfter hhead
    rw [hspan'] at hevent
    cases hevent
    -- the text of a block that is innermost would be taken
    have hnone : e.blockText? = none := by simpa [absorbed, hhead, htag] using he
    rw [hnone, Option.getD_none, ite_self, List.append_nil]
  · rw [if_neg hinner, List.append_nil]

end Node

/-! ## The outline of a tree under construction -/

namespace Node

/-- The nodes of several trees with roots at depth `d`, without the nodes inside them. -/
def outlineBare (d : Nat) (ns : List Node) : List (Nat × Node) :=
  (outlineAllFrom d ns).map fun (depth, n) ↦ (depth, n.bare)

private theorem outlineAllFrom_append (d : Nat) (ms ns : List Node) :
    outlineAllFrom d (ms ++ ns) = outlineAllFrom d ms ++ outlineAllFrom d ns := by
  induction ms with
  | nil => rfl
  | cons m ms ih => rw [List.cons_append, outlineAllFrom, outlineAllFrom, ih, List.append_assoc]

private theorem outlineFrom_eq (d : Nat) (n : Node) :
    n.outlineFrom d = (d, n) :: outlineAllFrom (d + 1) n.children := by
  cases n
  rw [outlineFrom]

/-- One more tree comes after the others, its root before what is inside. -/
private theorem outlineBare_concat (d : Nat) (ns : List Node) (n : Node) : outlineBare d (ns ++ [n]) =
    outlineBare d ns ++ (d, n.bare) :: outlineBare (d + 1) n.children := by
  simp only [outlineBare, outlineAllFrom_append, outlineAllFrom, outlineFrom_eq, List.append_nil,
    List.map_append, List.map_cons]

/-- The nodes that the events from number `first` up to number `stop` make. -/
def madeBetween (x : LineIndex) (es : List Event) (first stop : Nat) : List (Nat × Node) :=
  (List.range' first (stop - first)).filterMap (madeBy? x es)

variable {x : LineIndex} {es es' : List Event}

private theorem madeBetween_self (x : LineIndex) (es : List Event) (n : Nat) :
    madeBetween x es n n = [] := by
  simp [madeBetween]

private theorem madeBetween_succ {first stop : Nat} (h : first ≤ stop) :
    madeBetween x es first (stop + 1) =
      madeBetween x es first stop ++ (madeBy? x es stop).toList := by
  rw [madeBetween, Nat.succ_sub h, List.range'_1_concat, List.filterMap_append,
    Nat.add_sub_cancel' h]
  rfl

private theorem madeBetween_append {first mid stop : Nat} (h : first ≤ mid) (h' : mid ≤ stop) :
    madeBetween x es first mid ++ madeBetween x es mid stop = madeBetween x es first stop := by
  have hrange := List.range'_append_1 (s := first) (m := mid - first) (n := stop - mid)
  rw [show first + (mid - first) = mid by omega,
    show mid - first + (stop - mid) = stop - first by omega] at hrange
  rw [madeBetween, madeBetween, madeBetween, ← List.filterMap_append, hrange]

private theorem madeBetween_congr {first stop : Nat}
    (h : ∀ i, first ≤ i → i < stop → madeBy? x es i = madeBy? x es' i) :
    madeBetween x es first stop = madeBetween x es' first stop := by
  apply List.filterMap_congr
  intro i hi
  rw [List.mem_range'_1] at hi
  exact h i hi.1 (by omega)

end Node

namespace OpenNodes

open Node

/-- The root of a tree, without the nodes inside it. -/
def bareRoot (x : LineIndex) : Node := .leaf x .root none ⟨0, x.byteLength⟩

/-- Nodes under construction are those of the constructs that are open, the innermost first. Each
was made by the event that entered it, and what is inside it so far by the events up to the one that
entered the next, or up to number `stop` for the innermost. -/
inductive Tracks (x : LineIndex) (es : List Event) : List (Nat × Tag) → List Node → Nat → Prop
  | root {n : Node} {stop : Nat} (hbare : n.bare = bareRoot x)
      (hinside : outlineBare 1 n.children = madeBetween x es 0 stop) : Tracks x es [] [n] stop
  | entered {i : Nat} {tag : Tag} {opened : List (Nat × Tag)} {n : Node} {ns : List Node}
      {stop : Nat} (hlt : i < stop) (hbare : madeBy? x es i = some (opened.length + 1, n.bare))
      (hinside : outlineBare (opened.length + 2) n.children = madeBetween x es (i + 1) stop)
      (houter : Tracks x es opened ns i) : Tracks x es ((i, tag) :: opened) (n :: ns) stop

namespace Tracks

variable {x : LineIndex} {es es' : List Event} {opened : List (Nat × Tag)} {n : Node}
  {ns : List Node} {stop : Nat}

/-- Only what the events before `stop` make matters. -/
theorem congr (h : Tracks x es opened ns stop)
    (hmade : ∀ i < stop, madeBy? x es i = madeBy? x es' i) : Tracks x es' opened ns stop := by
  induction h with
  | root hbare hinside =>
    exact .root hbare (hinside.trans (madeBetween_congr fun i _ ↦ hmade i))
  | entered hlt hbare hinside houter ih =>
    refine .entered hlt ((hmade _ hlt).symm.trans hbare)
      (hinside.trans (madeBetween_congr fun i _ ↦ hmade i)) ?_
    exact ih fun i hi ↦ hmade i (Nat.lt_trans hi hlt)

/-- What further events make comes last inside the innermost node. -/
private theorem extend (h : Tracks x es opened (n :: ns) stop) {n' : Node} {stop' : Nat}
    (hle : stop ≤ stop') (hbare : n'.bare = n.bare)
    (hinside : outlineBare (opened.length + 1) n'.children =
      outlineBare (opened.length + 1) n.children ++ madeBetween x es stop stop') :
    Tracks x es opened (n' :: ns) stop' := by
  cases h with
  | root hroot hmade =>
    refine .root (hbare.trans hroot) ?_
    rw [← madeBetween_append (Nat.zero_le _) hle, ← hmade]
    exact hinside
  | entered hlt hnode hmade houter =>
    refine .entered (Nat.lt_of_lt_of_le hlt hle) (by rw [hbare, hnode]) ?_ houter
    rw [← madeBetween_append hlt hle, ← hmade]
    exact hinside

/-- When the innermost node is left, it comes last inside the one around it. -/
theorem leave {i : Nat} {tag : Tag} {parent : Node}
    (h : Tracks x es ((i, tag) :: opened) (n :: parent :: ns) stop) :
    Tracks x es opened (parent.adopt n :: ns) stop := by
  cases h with
  | entered hlt hnode hmade houter =>
    refine houter.extend (Nat.le_of_lt hlt) rfl ?_
    have hown : madeBetween x es i (i + 1) = [(opened.length + 1, n.bare)] := by
      rw [madeBetween_succ (Nat.le_refl i), madeBetween_self, hnode]
      rfl
    rw [← madeBetween_append (Nat.le_succ i) hlt, hown, ← hmade]
    exact outlineBare_concat _ _ _

/-- When all nodes are left, the tree has the nodes that the events make, in their order. -/
private theorem outline_root (h : Tracks x es opened (n :: ns) stop) :
    (OpenNodes.root n ns).outline.map (fun (depth, n) ↦ (depth, n.bare)) =
      (0, bareRoot x) :: madeBetween x es 0 stop := by
  induction ns generalizing n opened with
  | nil =>
    cases h with
    | root hroot hmade =>
      rw [OpenNodes.root, outline, outlineFrom_eq, List.map_cons, ← hmade, ← hroot]
      rfl
    | entered hlt hnode hmade houter => cases houter
  | cons parent ns ih =>
    cases opened with
    | nil => cases h
    | cons entry opened => exact ih h.leave

/-- The innermost node takes text for its own exactly when its construct is a block of code or
HTML. -/
private theorem holdsText_eq (h : Tracks x es (openAfter es) (n :: ns) stop) :
    n.holdsText = (openAfter es).head?.any (·.2.isVerbatim) := by
  have hbare : n.holdsText = n.bare.holdsText := rfl
  have hentered (i : Nat) (tag : Tag) (h : (openAfter es).head? = some (i, tag)) :
      ∃ span, es[i]? = some (.enter tag span) := Markdown.entered_of_head?_openAfter h
  generalize openAfter es = opened at h hentered
  cases h with
  | root hroot hmade =>
    rw [hbare, hroot]
    rfl
  | @entered i tag opened _ _ _ hlt hnode hmade houter =>
    obtain ⟨span, hspan⟩ := hentered i tag rfl
    rw [madeBy?_of_enter hspan, Option.some.injEq, Prod.mk.injEq] at hnode
    rw [hbare, ← hnode.2]
    cases tag <;> rfl

/-- An event that makes no node adds nothing. -/
theorem skip (h : Tracks x es opened (n :: ns) stop) (hnone : madeBy? x es stop = none) :
    Tracks x es opened (n :: ns) (stop + 1) := by
  refine h.extend (Nat.le_succ _) rfl ?_
  rw [madeBetween_succ (Nat.le_refl _), madeBetween_self, hnone]
  exact (List.append_nil _).symm

/-- A node that holds no nodes comes last inside the innermost one. -/
theorem addLeaf (h : Tracks x es opened (n :: ns) stop) {kind : NodeKind}
    {value : Option (List Char)} {span : Span}
    (hmade : madeBy? x es stop = some (opened.length + 1, .leaf x kind value span)) :
    Tracks x es opened (n.adopt (.leaf x kind value span) :: ns) (stop + 1) := by
  refine h.extend (Nat.le_succ _) rfl ?_
  rw [madeBetween_succ (Nat.le_refl _), madeBetween_self, hmade]
  exact outlineBare_concat _ _ _

end Tracks

variable {x : LineIndex} {es : List Event} {o : OpenNodes} {value : List Char} {e : Event}

/-- Text that is taken for its own by the innermost node adds to the value of that. -/
private theorem Tracks.absorb {n : Node} {ns : List Node}
    (h : Tracks x es (openAfter es) (n :: ns) es.length) (he : absorbed es e = true)
    (hvalue : e.blockText? = some value) (hnew : madeBy? x (es ++ [e]) es.length = none) :
    Tracks x (es ++ [e]) (openAfter es) (n.appendValue value :: ns) (es.length + 1) := by
  rw [absorbed, Bool.and_eq_true, Option.any_eq_true] at he
  obtain ⟨-, ⟨i, tag⟩, hhead, htag⟩ := he
  obtain ⟨span, hspan⟩ := Markdown.entered_of_head?_openAfter hhead
  -- no node but the innermost one is changed
  have hother (j : Nat) (hj : j < es.length) (hne : i ≠ j) :
      madeBy? x es j = madeBy? x (es ++ [e]) j := by
    refine (madeBy?_concat hj fun _ _ _ _ ↦ ?_).symm
    rw [Markdown.textInside_concat, hhead, if_neg (by simpa using hne), List.append_nil]
  have htext : textInside (es ++ [e]) i = textInside es i ++ value := by
    rw [Markdown.textInside_concat, hhead, hvalue]
    simp
  have hspan' : (es ++ [e])[i]? = some (.enter tag span) := by
    rw [List.getElem?_append_left (List.getElem?_eq_some_iff.mp hspan).1, hspan]
  obtain ⟨opened, hopened⟩ := List.head?_eq_some_iff.mp hhead
  rw [hopened] at h ⊢
  cases h with
  | entered hlt hnode hinside houter =>
    refine .entered (Nat.lt_succ_of_lt hlt) ?_ ?_
      (houter.congr fun j hj ↦ hother j (Nat.lt_trans hj hlt) (Nat.ne_of_gt hj))
    · rw [madeBy?_of_enter hspan, if_pos htag, Option.some.injEq, Prod.mk.injEq] at hnode
      have hbare : (n.appendValue value).bare = n.bare.appendValue value := rfl
      rw [madeBy?_of_enter hspan', if_pos htag, htext,
        List.take_append_of_le_length (Nat.le_of_lt hlt), hnode.1, hbare, ← hnode.2]
      rfl
    · rw [madeBetween_succ hlt, hnew, Option.toList_none, List.append_nil,
        ← madeBetween_congr fun j hj hj' ↦ hother j hj' (Nat.ne_of_lt hj)]
      exact hinside

/-- What the events before make does not change with an event that is not taken for text of a
block. -/
private theorem Tracks.concat {opened : List (Nat × Tag)} {ns : List Node}
    (h : Tracks x es opened ns es.length) (he : absorbed es e = false) :
    Tracks x (es ++ [e]) opened ns es.length :=
  h.congr fun _ hi ↦ (madeBy?_concat_of_not_absorbed hi he).symm

/-- Text is taken for its own by the innermost node, or makes a node inside it. -/
theorem Tracks.addText (h : Tracks x es (openAfter es) (o.innermost :: o.outer) es.length)
    (hvalue : e.blockText? = some value) {kind : NodeKind} {span : Span}
    (hmade : madeBy? x (es ++ [e]) es.length = if absorbed es e then none
      else some ((openAfter es).length + 1, .leaf x kind (some value) span)) :
    Tracks x (es ++ [e]) (openAfter es)
      ((o.addText value (.leaf x kind (some value) span)).innermost ::
        (o.addText value (.leaf x kind (some value) span)).outer) (es.length + 1) := by
  have hholds : o.innermost.holdsText = absorbed es e := by
    rw [h.holdsText_eq, absorbed, hvalue, Option.isSome_some, Bool.true_and]
  rw [OpenNodes.addText, hholds]
  cases he : absorbed es e with
  | true => exact h.absorb he hvalue (by rw [hmade, he]; rfl)
  | false =>
    rw [he] at hmade
    exact (h.concat he).addLeaf hmade

/-- One event more makes its node. -/
theorem tracks_step (h : Tracks x es (openAfter es) (o.innermost :: o.outer) es.length)
    (e : Event) : Tracks x (es ++ [e]) (openAfter (es ++ [e]))
      ((o.step x e).innermost :: (o.step x e).outer) (es ++ [e]).length := by
  rw [Markdown.openAfter_concat, List.length_append, List.length_singleton]
  cases e with
  | enter tag span =>
    have hchildren := children_ofTag (x := x) tag span
    refine .entered (Nat.lt_succ_self _) ?_ ?_ (h.concat rfl)
    · rw [madeBy?_of_enter (List.getElem?_concat_length ..), List.take_left,
        Markdown.textInside_eq_nil (by simp)]
      cases tag <;> rfl
    · rw [madeBetween_self]
      exact congrArg _ hchildren
  | leave =>
    have hnone : madeBy? x (es ++ [.leave]) es.length = none := by simp [madeBy?]
    have h := h.concat (e := .leave) rfl
    obtain ⟨innermost, outer⟩ := o
    generalize openAfter es = opened at h
    cases outer with
    | nil =>
      cases h with
      | root hroot hmade => exact Tracks.skip (.root hroot hmade) hnone
      | entered hlt hnode hmade houter => cases houter
    | cons parent outer =>
      cases opened with
      | nil => cases h
      | cons entry opened => exact h.leave.skip hnone
  | text value span => exact h.addText rfl (by simp [madeBy?])
  | html value span => exact h.addText rfl (by simp [madeBy?])
  | inlineHtml value span => exact (h.concat rfl).addLeaf (by simp [madeBy?])
  | code value span => exact (h.concat rfl).addLeaf (by simp [madeBy?])
  | rule span => exact (h.concat rfl).addLeaf (by simp [madeBy?])
  | hardBreak span => exact (h.concat rfl).addLeaf (by simp [madeBy?])
  | softBreak span => exact (h.concat rfl).skip (by simp [madeBy?])

/-- Events make their nodes, whatever they are. -/
theorem tracks_foldl_step (x : LineIndex) (es : List Event) :
    Tracks x es (openAfter es) ((es.foldl (step x) ⟨bareRoot x, []⟩).innermost ::
      (es.foldl (step x) ⟨bareRoot x, []⟩).outer) es.length := by
  induction es using List.reverseRecOn with
  | nil => exact .root rfl (madeBetween_self x [] 0).symm
  | append_singleton es e ih =>
    rw [List.foldl_append]
    exact tracks_step ih e

end OpenNodes

namespace Node

mutual

/-- Document order is the same with depths and without. -/
private theorem map_snd_outlineFrom : ∀ (n : Node) (d : Nat), (n.outlineFrom d).map (·.2) = n.preorder
  | ⟨_, _, _, _, children⟩, d => by
    rw [outlineFrom, preorder, List.map_cons, map_snd_outlineAllFrom children (d + 1)]

private theorem map_snd_outlineAllFrom : ∀ (ns : List Node) (d : Nat),
    (outlineAllFrom d ns).map (·.2) = preorderAll ns
  | [], _ => rfl
  | n :: ns, d => by
    rw [outlineAllFrom, preorderAll, List.map_append, map_snd_outlineFrom n d,
      map_snd_outlineAllFrom ns d]

end

/-- The tree of any events is a root and below it the nodes that the events make, in the order of
the events and each once, as deep as constructs are open around them; this is document order. -/
theorem outline_ofEvents (x : LineIndex) (es : List Event) :
    (ofEvents x es).outline.map (fun (depth, n) ↦ (depth, n.bare)) =
        (0, .leaf x .root none ⟨0, x.byteLength⟩) ::
          (List.range es.length).filterMap (madeBy? x es) ∧
      (ofEvents x es).outline.map (·.2) = (ofEvents x es).preorder := by
  constructor
  · rw [List.range_eq_range']
    exact (OpenNodes.tracks_foldl_step x es).outline_root
  · exact map_snd_outlineFrom _ 0

/-- An end without a start, text inside a block and inside another construct in it, and starts
without ends. -/
example : (ofEvents (.ofText []) [.leave, .enter .htmlBlock ⟨0, 0⟩, .html ['a'] ⟨0, 0⟩,
      .enter .emphasis ⟨0, 0⟩, .text ['b'] ⟨0, 0⟩, .leave, .html ['c'] ⟨0, 0⟩]).outline.map
        (fun (depth, n) ↦ (depth, n.kind, n.value)) =
    [(0, .root, none), (1, .html, some ['a', 'c']), (2, .emphasis, none),
      (3, .text, some ['b'])] := by
  decide

end Node

end FencedCode
