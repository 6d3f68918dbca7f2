import FencedCode.Node.OfEvents
import FencedCode.Node.Walk

/-!
# What holds of every node of a tree

A tree is built step by step along a path of open nodes. What holds of the open nodes whatever they
take up, and of the nodes inside them, is kept by every step, and so holds of every node of the tree
in the end.
-/

namespace FencedCode

open Markdown (Event Span Tag)

namespace Node

/-- The pre-order of nodes one after the other is theirs one after the other. -/
theorem preorderAll_append (ms ns : List Node) :
    preorderAll (ms ++ ns) = preorderAll ms ++ preorderAll ns := by
  induction ms with
  | nil => rfl
  | cons m ms ih => rw [List.cons_append, preorderAll, preorderAll, ih, List.append_assoc]

/-- In the pre-order of a node are the node and those in the pre-order of its children. -/
theorem mem_preorder_iff {m n : Node} : m ∈ n.preorder ↔ m = n ∨ m ∈ preorderAll n.children := by
  rw [preorder_eq, List.mem_cons]

private theorem mem_preorderAll_adopt_iff {m n child : Node} :
    m ∈ preorderAll (n.adopt child).children ↔
      m ∈ preorderAll n.children ∨ m ∈ child.preorder := by
  simp [adopt, preorderAll_append, preorderAll]

/-- A property `P` of open nodes that is kept by all that they take up, and the property `Q` that
they have once they are left; `Q` holds of every node that is never open. -/
structure Inherits (x : LineIndex) (P Q : Node → Prop) : Prop where
  adopt : ∀ n child, P n → P (n.adopt child)
  appendValue : ∀ n text, P n → P (n.appendValue text)
  left : ∀ n, P n → Q n
  leaf : ∀ kind value span, Q (.leaf x kind value span)

end Node

namespace OpenNodes

variable {x : LineIndex} {P Q : Node → Prop} {o : OpenNodes}

/-- The open nodes have the property `P` and all nodes inside them the property `Q`. -/
structure Holds (P Q : Node → Prop) (o : OpenNodes) : Prop where
  isOpen : ∀ n ∈ o.innermost :: o.outer, P n
  inside : ∀ n ∈ o.innermost :: o.outer, ∀ m ∈ Node.preorderAll n.children, Q m

/-- A node may be added to trees that hold two properties. -/
theorem Holds.add (hx : Node.Inherits x P Q) (h : o.Holds P Q) {n : Node}
    (hn : ∀ m ∈ n.preorder, Q m) : (o.add n).Holds P Q := by
  obtain ⟨hinner, houter⟩ := List.forall_mem_cons.mp h.isOpen
  obtain ⟨hinside, hinsideOuter⟩ := List.forall_mem_cons.mp h.inside
  constructor
  · exact List.forall_mem_cons.mpr ⟨hx.adopt _ _ hinner, houter⟩
  · refine List.forall_mem_cons.mpr ⟨?_, hinsideOuter⟩
    intro m hm
    rcases Node.mem_preorderAll_adopt_iff.mp hm with hm | hm
    · exact hinside m hm
    · exact hn m hm

/-- And so may a leaf. -/
theorem Holds.addLeaf (hx : Node.Inherits x P Q) (h : o.Holds P Q) (kind : NodeKind)
    (value : Option (List Char)) (span : Span) : (o.add (.leaf x kind value span)).Holds P Q := by
  apply h.add hx
  intro m hm
  obtain rfl : m = .leaf x kind value span := by
    simpa [Node.mem_preorder_iff, Node.leaf, Node.preorderAll] using hm
  exact hx.leaf kind value span

/-- A node without children may be entered. -/
theorem Holds.enter (h : o.Holds P Q) {n : Node} (hn : P n) (hchildren : n.children = []) :
    (o.enter n).Holds P Q := by
  constructor
  · exact List.forall_mem_cons.mpr ⟨hn, h.isOpen⟩
  · refine List.forall_mem_cons.mpr ⟨?_, h.inside⟩
    intro m hm
    have hnone : (o.enter n).innermost.children = [] := hchildren
    simp [hnone, Node.preorderAll] at hm

/-- The innermost node may be left. -/
theorem Holds.leave (hx : Node.Inherits x P Q) (h : o.Holds P Q) : o.leave.Holds P Q := by
  obtain ⟨innermost, outer⟩ := o
  cases outer with
  | nil => exact h
  | cons parent outer =>
    obtain ⟨hinner, houter⟩ := List.forall_mem_cons.mp h.isOpen
    obtain ⟨hinside, hinsideOuter⟩ := List.forall_mem_cons.mp h.inside
    have hrest : (⟨parent, outer⟩ : OpenNodes).Holds P Q := ⟨houter, hinsideOuter⟩
    apply hrest.add hx
    intro m hm
    rcases Node.mem_preorder_iff.mp hm with rfl | hm
    · exact hx.left _ hinner
    · exact hinside m hm

/-- Text may be added. -/
theorem Holds.addText (hx : Node.Inherits x P Q) (h : o.Holds P Q) (text : List Char)
    (kind : NodeKind) (value : Option (List Char)) (span : Span) :
    (o.addText text (.leaf x kind value span)).Holds P Q := by
  unfold OpenNodes.addText
  split
  · obtain ⟨hinner, houter⟩ := List.forall_mem_cons.mp h.isOpen
    obtain ⟨hinside, hinsideOuter⟩ := List.forall_mem_cons.mp h.inside
    exact ⟨List.forall_mem_cons.mpr ⟨hx.appendValue _ _ hinner, houter⟩,
      List.forall_mem_cons.mpr ⟨hinside, hinsideOuter⟩⟩
  · exact h.addLeaf hx kind value span

/-- A node that is entered has no children yet. -/
theorem children_ofTag (tag : Tag) (span : Span) : (Node.ofTag x tag span).children = [] := by
  cases tag <;> rfl

/-- One event keeps what holds, when the node that it may enter has the property of open nodes. -/
theorem Holds.step (hx : Node.Inherits x P Q) (h : o.Holds P Q) {e : Event}
    (he : ∀ tag span, e = .enter tag span → P (.ofTag x tag span)) : (o.step x e).Holds P Q := by
  cases e with
  | enter tag span => exact h.enter (he tag span rfl) (children_ofTag tag span)
  | leave => exact h.leave hx
  | text value span => exact h.addText hx _ _ _ _
  | html value span => exact h.addText hx _ _ _ _
  | inlineHtml value span => exact h.addLeaf hx _ _ _
  | code value span => exact h.addLeaf hx _ _ _
  | rule span => exact h.addLeaf hx _ _ _
  | hardBreak span => exact h.addLeaf hx _ _ _
  | softBreak span => exact h

/-- A run of events keeps what holds. -/
theorem Holds.foldl_step (hx : Node.Inherits x P Q) (h : o.Holds P Q) {es : List Event}
    (hes : ∀ tag span, .enter tag span ∈ es → P (.ofTag x tag span)) :
    (es.foldl (OpenNodes.step x) o).Holds P Q := by
  induction es generalizing o with
  | nil => exact h
  | cons e es ih =>
    rw [List.foldl_cons]
    apply ih (h.step hx fun tag span he ↦ hes tag span (by simp [he]))
    exact fun tag span hmem ↦ hes tag span (List.mem_cons_of_mem _ hmem)

/-- When all nodes are left, every node of the tree has the property of the nodes inside. -/
theorem Holds.root (hx : Node.Inherits x P Q) {innermost : Node} {outer : List Node}
    (h : (⟨innermost, outer⟩ : OpenNodes).Holds P Q) :
    ∀ m ∈ (OpenNodes.root innermost outer).preorder, Q m := by
  induction outer generalizing innermost with
  | nil =>
    intro m hm
    rcases Node.mem_preorder_iff.mp hm with rfl | hm
    · exact hx.left _ (h.isOpen _ List.mem_cons_self)
    · exact h.inside _ List.mem_cons_self m hm
  | cons parent outer ih => exact ih (h.leave hx)

end OpenNodes

namespace Node

/-- Every node of a tree stands in the place that its kind makes of some span. -/
theorem exists_place_of_mem_ofEvents {x : LineIndex} {es : List Event} {n : Node}
    (h : n ∈ (ofEvents x es).preorder) : ∃ s, n.range = n.kind.place x s := by
  let Placed (m : Node) : Prop := ∃ s, m.range = m.kind.place x s
  have hx : Inherits x Placed Placed :=
    ⟨fun _ _ h ↦ h, fun _ _ h ↦ h, fun _ h ↦ h, fun _ _ s ↦ ⟨s, rfl⟩⟩
  have hroot : (⟨{ kind := .root, range := NodeKind.root.place x ⟨0, x.byteLength⟩ }, []⟩ :
      OpenNodes).Holds Placed Placed := by
    constructor
    · exact List.forall_mem_singleton.mpr ⟨_, rfl⟩
    · simp [preorderAll]
  have hes (tag : Tag) (span : Span) (_ : .enter tag span ∈ es) : Placed (ofTag x tag span) :=
    ⟨span, by cases tag <;> rfl⟩
  exact (hroot.foldl_step hx hes).root hx n h

end Node

end FencedCode
