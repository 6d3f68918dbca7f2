import FencedCode.Node

/-!
# Document order

The nodes of a tree in document order, a node before its children: by recursion on the tree
(`Node.preorder`), with depths (`Node.outline`), and one at a time from a stack of trees that are
still to be visited (`Walk`).

Section 4.5 of the specification.
-/

namespace FencedCode

namespace Node

mutual

/-- Number of nodes of a tree. -/
def size : Node → Nat
  | ⟨_, _, _, _, children⟩ => 1 + sizeAll children

/-- Number of nodes of several trees. -/
def sizeAll : List Node → Nat
  | [] => 0
  | n :: ns => n.size + sizeAll ns

end

mutual

/-- The nodes of a tree in document order. -/
def preorder : Node → List Node
  | ⟨kind, range, lang, value, children⟩ =>
    ⟨kind, range, lang, value, children⟩ :: preorderAll children

/-- The nodes of several trees, one tree after the other. -/
def preorderAll : List Node → List Node
  | [] => []
  | n :: ns => n.preorder ++ preorderAll ns

end

mutual

/-- The nodes of a tree in document order, each with its depth below a root at depth `d`. -/
def outlineFrom (d : Nat) : Node → List (Nat × Node)
  | ⟨kind, range, lang, value, children⟩ =>
    (d, ⟨kind, range, lang, value, children⟩) :: outlineAllFrom (d + 1) children

/-- The nodes of several trees with roots at depth `d`. -/
def outlineAllFrom (d : Nat) : List Node → List (Nat × Node)
  | [] => []
  | n :: ns => n.outlineFrom d ++ outlineAllFrom d ns

end

/-- The nodes of a tree in document order with their depths. -/
def outline (n : Node) : List (Nat × Node) := n.outlineFrom 0

/-- In pre-order a node comes before its children. -/
theorem preorder_eq (n : Node) : n.preorder = n :: preorderAll n.children := by
  cases n
  simp [preorder]

private theorem size_eq (n : Node) : n.size = 1 + sizeAll n.children := by
  cases n
  simp [size]

private theorem sizeAll_append (ms ns : List Node) :
    sizeAll (ms ++ ns) = sizeAll ms + sizeAll ns := by
  induction ms with
  | nil => simp [sizeAll]
  | cons m ms ih => simp [sizeAll, ih, Nat.add_assoc]

end Node

/-- A visit to trees under way: those still to come, the next one first. -/
structure Walk where
  pending : List Node

namespace Walk

/-- The visit that starts at the root of a tree. -/
def start (root : Node) : Walk := ⟨[root]⟩

/-- The next node and the visit after it, whose next trees are the node's children. -/
def next? (w : Walk) : Option (Node × Walk) :=
  match w.pending with
  | [] => none
  | n :: ns => some (n, ⟨n.children ++ ns⟩)

private theorem next?_decreases {w w' : Walk} {n : Node} (h : w.next? = some (n, w')) :
    Node.sizeAll w'.pending < Node.sizeAll w.pending := by
  unfold next? at h
  split at h
  · simp at h
  · next m ms hm =>
    simp only [Option.some.injEq, Prod.mk.injEq] at h
    obtain ⟨rfl, rfl⟩ := h
    rw [hm, Node.sizeAll_append, Node.sizeAll, Node.size_eq]
    omega

/-- The nodes that a visit still passes, in order. -/
def toList (w : Walk) : List Node :=
  match _h : w.next? with
  | none => []
  | some (n, w') => n :: toList w'
termination_by Node.sizeAll w.pending
decreasing_by exact next?_decreases _h

end Walk

end FencedCode
