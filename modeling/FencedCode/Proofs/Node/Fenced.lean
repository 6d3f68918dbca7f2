import FencedCode.Document
import FencedCode.Proofs.Markdown.Blocks
import FencedCode.Proofs.Markdown.Inlines
import FencedCode.Proofs.Node.Trees

/-!
# Nodes of fenced code blocks

Only an opening fence gives a node an info string: all other nodes of a document are those of
constructs that have none. A node with an info string has the place and the value of a fenced code
block of the text, since the events of the block are its pieces of text and nothing else.
-/

namespace FencedCode

open Markdown

/-- A node has the place and the code of a fenced code block. -/
structure Node.Shows {text : List Char} (n : Node) (b : FencedBlock text) : Prop where
  kind_eq : n.kind = .code
  range_eq : n.range = NodeKind.code.place (LineIndex.ofText text) b.span
  value_eq : n.value = some b.value

/-- What is needed of the node for a fenced code block: the text has such a block, with lines of
code behind margins and perhaps a closing fence, whose place and code the node has. -/
def Node.ShowsFence (text : List Char) (n : Node) : Prop := ∃ b : FencedBlock text, n.Shows b

/-- No code block with an info string is entered in events. -/
def EntersNoFence (es : List Event) : Prop :=
  ∀ tag span, .enter tag span ∈ es → ∀ info, tag ≠ .fencedCode info

section Events

variable {es es' : List Event} {labels : List (List Char)} {path : List Container}

/-- Events without a fence may be put one after the other. -/
theorem EntersNoFence.append (h : EntersNoFence es) (h' : EntersNoFence es') :
    EntersNoFence (es ++ es') :=
  fun tag span hmem ↦ (List.mem_append.mp hmem).elim (h tag span) (h' tag span)

/-- Events of several parts enter no fence where those of each part do not. -/
theorem EntersNoFence.flatMap {α : Type} {f : α → List Event} (h : ∀ a, EntersNoFence (f a))
    (as : List α) : EntersNoFence (as.flatMap f) := by
  intro tag span hmem
  obtain ⟨a, -, hmem⟩ := List.mem_flatMap.mp hmem
  exact h a tag span hmem

/-- A tag that is no fence may surround them. -/
theorem EntersNoFence.surround {tag : Tag} (h : EntersNoFence es)
    (htag : ∀ info, tag ≠ .fencedCode info) (span : Span) :
    EntersNoFence (Event.surround tag span es) := by
  intro tag' span' hmem
  simp only [Event.surround, List.cons_append, List.mem_cons, List.mem_append, List.not_mem_nil,
    or_false, Event.enter.injEq, reduceCtorEq] at hmem
  rcases hmem with ⟨rfl, -⟩ | hmem
  · exact htag
  · exact h tag' span' hmem

private theorem entersNoFence_pieces (ps : List Piece) : EntersNoFence (ps.map Event.ofPiece) := by
  intro tag span hmem
  obtain ⟨p, -, hp⟩ := List.mem_map.mp hmem
  unfold Event.ofPiece at hp
  split at hp
  all_goals cases hp

private theorem entersNoFence_ofTokens (stop : Nat) (inTable : Bool) (ts : List Token) :
    EntersNoFence (Event.ofTokens labels path stop inTable ts) := by
  rintro tag span hmem info rfl
  cases isInline_of_enter_mem (properInlines_inlinesOf _ ts) hmem

private theorem entersNoFence_ofRow {tag : Tag} (htag : ∀ info, tag ≠ .fencedCode info)
    (row : TableRow) :
    EntersNoFence (Event.ofRow labels path tag row) :=
  (EntersNoFence.flatMap (fun _ ↦ (entersNoFence_ofTokens _ _ _).surround (by simp) _) _).surround
    htag _

private theorem entersNoFence_ofRows (rows : List TableRow) :
    EntersNoFence (Event.ofRows labels path rows) := by
  cases rows with
  | nil => simp [EntersNoFence, Event.ofRows]
  | cons head rows =>
    exact (entersNoFence_ofRow (by simp) _).append
      (.flatMap (fun _ ↦ entersNoFence_ofRow (by simp) _) _)

private theorem ofBlocks_eq_flatMap (tight : Bool) (bs : List Block) :
    Event.ofBlocks labels path tight bs = bs.flatMap (Event.ofBlock labels path tight) := by
  induction bs with
  | nil => rfl
  | cons b bs ih => rw [Event.ofBlocks, ih, List.flatMap_cons]

end Events

/-- A node that is open has no info string, or takes up nothing but its own text. -/
private theorem Node.lang_ofTag {x : LineIndex} {tag : Tag} (h : ∀ info, tag ≠ .fencedCode info)
    (span : Span) : (Node.ofTag x tag span).lang = none := by
  cases tag with
  | fencedCode info => exact absurd rfl (h info)
  | _ => rfl

namespace OpenNodes

variable {text : List Char} {o : OpenNodes}

/-- The open nodes have no info string; those inside that have one show a fenced code block of the
text. -/
def HoldsFenced (text : List Char) (o : OpenNodes) : Prop :=
  o.Holds (fun n ↦ n.lang = none) fun n ↦ n.lang ≠ none → n.ShowsFence text

private theorem inherits_fenced (text : List Char) : Node.Inherits (LineIndex.ofText text)
    (fun n ↦ n.lang = none) fun n ↦ n.lang ≠ none → n.ShowsFence text where
  adopt _ _ h := h
  appendValue _ _ h := h
  left _ h hne := absurd h hne
  leaf _ _ _ hne := absurd rfl hne

/-- Such events leave the nodes that hold fenced blocks as they are. -/
theorem HoldsFenced.foldl_step (h : o.HoldsFenced text) {es : List Event} (hes : EntersNoFence es) :
    (es.foldl (step (.ofText text)) o).HoldsFenced text :=
  Holds.foldl_step (inherits_fenced text) h fun tag span hmem ↦
    Node.lang_ofTag (hes tag span hmem) span

/-- The events of a construct open its node around the events inside it. -/
private theorem foldl_surround (x : LineIndex) (o : OpenNodes) (tag : Tag) (span : Span) (es : List Event) :
    (Event.surround tag span es).foldl (step x) o =
      (es.foldl (step x) (o.enter (.ofTag x tag span))).leave := by
  simp [Event.surround, step]

private theorem HoldsFenced.foldl_surround (h : o.HoldsFenced text) {tag : Tag}
    (htag : ∀ info, tag ≠ .fencedCode info) {span : Span} {es : List Event}
    (hes : ∀ o : OpenNodes, o.HoldsFenced text →
      (es.foldl (step (.ofText text)) o).HoldsFenced text) :
    ((Event.surround tag span es).foldl (step (.ofText text)) o).HoldsFenced text := by
  rw [OpenNodes.foldl_surround]
  refine (hes _ ?_).leave (inherits_fenced text)
  exact Holds.enter h (Node.lang_ofTag htag span) (children_ofTag tag span)

/-- Pieces of text inside a code block add to the value of its node. -/
private theorem foldl_pieces (x : LineIndex) {n : Node} (h : n.holdsText = true) (outer : List Node)
    (ps : List Piece) : (ps.map Event.ofPiece).foldl (step x) ⟨n, outer⟩ =
      ⟨n.appendValue (ps.flatMap (·.value)), outer⟩ := by
  induction ps generalizing n with
  | nil =>
    cases n
    simp [Node.appendValue]
  | cons p ps ih =>
    have hstep : step x ⟨n, outer⟩ (Event.ofPiece p) = ⟨n.appendValue p.value, outer⟩ := by
      unfold Event.ofPiece
      split
      all_goals simp [step, addText, h]
    have hholds : (n.appendValue p.value).holdsText = true := by
      simpa [Node.holdsText, Node.appendValue] using h
    rw [List.map_cons, List.foldl_cons, hstep, ih hholds]
    simp [Node.appendValue, Function.comp_def]

/-- The events of a fenced code block add a node that shows it. -/
theorem HoldsFenced.foldl_fenced (h : o.HoldsFenced text) (b : FencedBlock text)
    (info : List Char) {ps : List Piece} (hps : ps.flatMap (·.value) = b.value) :
    ((Event.surround (.fencedCode info) b.span (ps.map Event.ofPiece)).foldl
      (step (.ofText text)) o).HoldsFenced text := by
  rw [OpenNodes.foldl_surround, enter, foldl_pieces _ rfl]
  apply Holds.add (inherits_fenced text) h
  intro m hm _
  obtain rfl : m = (Node.ofTag (.ofText text) (.fencedCode info) b.span).appendValue
      (ps.flatMap (·.value)) := by
    simpa [Node.mem_preorder_iff, Node.appendValue, children_ofTag, Node.preorderAll] using hm
  exact ⟨b, rfl, rfl, by rw [hps]; rfl⟩

private theorem HoldsFenced.foldl_flatMap (h : o.HoldsFenced text) {f : Block → List Event}
    {bs : List Block} (hbs : ∀ b ∈ bs, ∀ o : OpenNodes, o.HoldsFenced text →
      ((f b).foldl (step (.ofText text)) o).HoldsFenced text) :
    ((bs.flatMap f).foldl (step (.ofText text)) o).HoldsFenced text := by
  induction bs generalizing o with
  | nil => exact h
  | cons b bs ih =>
    obtain ⟨hb, hbs⟩ := List.forall_mem_cons.mp hbs
    rw [List.flatMap_cons, List.foldl_append]
    exact ih (hb o h) hbs

/-- The events of a block of the text keep what holds. -/
theorem HoldsFenced.foldl_block {b : Block} (hb : b.IsOf text) (h : o.HoldsFenced text)
    (labels : List (List Char)) (path : List Container) (tight : Bool) :
    ((Event.ofBlock labels path tight b).foldl (step (.ofText text)) o).HoldsFenced text := by
  induction hb generalizing o path tight with
  | container kind span hchildren ih =>
    have hinner (o : OpenNodes) (h : o.HoldsFenced text) (path : List Container) (tight : Bool) :=
      h.foldl_flatMap fun b hb _ ho ↦ ih b hb ho path tight
    unfold Event.ofBlock
    simp only [ofBlocks_eq_flatMap]
    split
    · exact hinner o h _ _
    · next tag htag =>
      refine h.foldl_surround ?_ fun o ho ↦ hinner o ho _ _
      rintro info rfl
      cases kind <;> cases htag
  | paragraph span tokens =>
    unfold Event.ofBlock
    simp only
    split
    · exact h.foldl_step (entersNoFence_ofTokens _ _ _)
    · exact h.foldl_step ((entersNoFence_ofTokens _ _ _).surround (by simp) _)
  | heading span tokens =>
    unfold Event.ofBlock
    exact h.foldl_step ((entersNoFence_ofTokens _ _ _).surround (by simp) _)
  | fenced b info hps => exact h.foldl_fenced b info hps
  | indented span pieces =>
    exact h.foldl_step ((entersNoFence_pieces pieces).surround (by simp) _)
  | html span pieces => exact h.foldl_step ((entersNoFence_pieces pieces).surround (by simp) _)
  | rule span => exact h.foldl_step (by simp [EntersNoFence, Event.ofBlock])
  | table span rows => exact h.foldl_step ((entersNoFence_ofRows rows).surround (by simp) _)

end OpenNodes

/-- A node of a document that has an info string shows a fenced code block of its text. -/
theorem Document.showsFence {text : List Char} {n : Node}
    (hn : n ∈ (ofText text).root.preorder) (hlang : n.lang ≠ none) : n.ShowsFence text := by
  let bare : Node :=
    { kind := .root,
      range := NodeKind.root.place (.ofText text) ⟨0, (LineIndex.ofText text).byteLength⟩ }
  have hbare : (⟨bare, []⟩ : OpenNodes).HoldsFenced text := by
    constructor
    · exact List.forall_mem_singleton.mpr rfl
    · simp [bare, Node.preorderAll]
  have hevents := hbare.foldl_flatMap fun b hb o ho ↦
    ho.foldl_block (BlockTree.isOf_of_mem text b hb) (BlockTree.ofText text).labels [] false
  rw [← ofBlocks_eq_flatMap] at hevents
  exact hevents.root (OpenNodes.inherits_fenced text) n hn hlang

end FencedCode
