import FencedCode.Proofs.Node.Trees

/-!
# Visiting trees from a stack

A visit passes the trees on its stack one after the other, each in document order, and is over after
as many steps as they have nodes. The main statement is that a visit that starts at the root of a
tree passes its nodes in the order of their paths, each node once, and that at any time what is left
are the trees on the stack.
-/

namespace FencedCode

namespace Node

/-- The nodes of several trees in document order are those of each tree. -/
theorem preorderAll_eq_flatMap (ns : List Node) : preorderAll ns = ns.flatMap preorder := by
  induction ns with
  | nil => rfl
  | cons n ns ih => rw [preorderAll, ih, List.flatMap_cons]

mutual

private theorem length_preorder : ∀ n : Node, n.preorder.length = n.size
  | ⟨_, _, _, _, children⟩ => by
    rw [preorder, size, List.length_cons, length_preorderAll children, Nat.add_comm]

/-- Trees have as many nodes in document order as they have nodes. -/
theorem length_preorderAll : ∀ ns : List Node, (preorderAll ns).length = sizeAll ns
  | [] => rfl
  | n :: ns => by
    rw [preorderAll, sizeAll, List.length_append, length_preorder n, length_preorderAll ns]

end

/-! ## Paths -/

/-- The node at a path below a node: each number says which child comes next. -/
def at? (n : Node) : List Nat → Option Node
  | [] => some n
  | i :: path => n.children[i]?.bind fun child ↦ child.at? path

mutual

/-- The paths of the nodes of a tree, read off its structure. -/
def paths : Node → List (List Nat)
  | ⟨_, _, _, _, children⟩ => [] :: pathsFrom 0 children

/-- The paths of the nodes of several trees that are the children of a node from number `i` on. -/
def pathsFrom (i : Nat) : List Node → List (List Nat)
  | [] => []
  | n :: ns => n.paths.map (i :: ·) ++ pathsFrom (i + 1) ns

end

private theorem at?_cons_of_getElem? {n child : Node} {i : Nat} (h : n.children[i]? = some child)
    (path : List Nat) : n.at? (i :: path) = child.at? path := by
  rw [at?, h, Option.bind_some]

mutual

/-- The nodes at the paths of a tree are its nodes in document order. -/
theorem map_at?_paths : ∀ n : Node, n.paths.map n.at? = n.preorder.map some
  | ⟨kind, range, lang, value, children⟩ => by
    have hchildren := map_at?_pathsFrom children ⟨kind, range, lang, value, children⟩ 0
      fun k ↦ by rw [Nat.zero_add]
    rw [paths, preorder, List.map_cons, List.map_cons, hchildren]
    rfl

private theorem map_at?_pathsFrom : ∀ (ns : List Node) (m : Node) (i : Nat),
    (∀ k, m.children[i + k]? = ns[k]?) → (pathsFrom i ns).map m.at? = (preorderAll ns).map some
  | [], _, _, _ => rfl
  | n :: ns, m, i, h => by
    have hfirst : m.children[i]? = some n := h 0
    have hrest (k : Nat) : m.children[i + 1 + k]? = ns[k]? := by
      rw [Nat.add_assoc, Nat.add_comm 1 k]
      exact h (k + 1)
    have hhead : (n.paths.map (i :: ·)).map m.at? = n.preorder.map some := by
      rw [List.map_map, ← map_at?_paths n]
      exact List.map_congr_left fun path _ ↦ at?_cons_of_getElem? hfirst path
    rw [pathsFrom, preorderAll, List.map_append, List.map_append, hhead,
      map_at?_pathsFrom ns m (i + 1) hrest]

end

mutual

/-- The paths of a tree are those that lead to a node. -/
theorem mem_paths_iff : ∀ (n : Node) (path : List Nat), path ∈ n.paths ↔ (n.at? path).isSome = true
  | ⟨kind, range, lang, value, children⟩, path => by
    rw [paths, List.mem_cons, mem_pathsFrom_iff children 0 path]
    cases path with
    | nil => simp [at?]
    | cons j path =>
      rw [at?, Option.isSome_bind, Option.any_eq_true]
      constructor
      · rintro (hnil | ⟨k, rest, child, heq, hchild, hrest⟩)
        · cases hnil
        · rw [Nat.zero_add, List.cons.injEq] at heq
          exact ⟨child, heq.1 ▸ hchild, heq.2 ▸ hrest⟩
      · rintro ⟨child, hchild, hrest⟩
        exact .inr ⟨j, path, child, by rw [Nat.zero_add], hchild, hrest⟩

private theorem mem_pathsFrom_iff :
    ∀ (ns : List Node) (i : Nat) (path : List Nat), path ∈ pathsFrom i ns ↔
    ∃ k rest n, path = (i + k) :: rest ∧ ns[k]? = some n ∧ (n.at? rest).isSome = true
  | [], _, _ => by simp [pathsFrom]
  | n :: ns, i, path => by
    rw [pathsFrom, List.mem_append, List.mem_map, mem_pathsFrom_iff ns (i + 1) path]
    constructor
    · rintro (⟨rest, hrest, rfl⟩ | ⟨k, rest, m, rfl, hk, hm⟩)
      · exact ⟨0, rest, n, rfl, rfl, (mem_paths_iff n rest).mp hrest⟩
      · exact ⟨k + 1, rest, m, by rw [Nat.add_right_comm, Nat.add_assoc], hk, hm⟩
    · rintro ⟨k, rest, m, rfl, hk, hm⟩
      cases k with
      | zero =>
        obtain rfl : n = m := Option.some.inj hk
        exact .inl ⟨rest, (mem_paths_iff n rest).mpr hm, rfl⟩
      | succ k => exact .inr ⟨k, rest, m, by rw [Nat.add_right_comm, Nat.add_assoc], hk, hm⟩

end

mutual

/-- The paths of a tree ascend: a node before its children, and these from left to right. -/
theorem pairwise_paths : ∀ n : Node, n.paths.Pairwise (· < ·)
  | ⟨_, _, _, _, children⟩ => by
    rw [paths, List.pairwise_cons]
    refine ⟨fun path hpath ↦ ?_, pairwise_pathsFrom children 0⟩
    obtain ⟨k, rest, -, rfl, -⟩ := (mem_pathsFrom_iff children 0 path).mp hpath
    exact List.nil_lt_cons _ _

private theorem pairwise_pathsFrom : ∀ (ns : List Node) (i : Nat), (pathsFrom i ns).Pairwise (· < ·)
  | [], _ => .nil
  | n :: ns, i => by
    rw [pathsFrom, List.pairwise_append, List.pairwise_map]
    refine ⟨?_, pairwise_pathsFrom ns (i + 1), ?_⟩
    · exact (pairwise_paths n).imp fun hlt ↦ List.cons_lt_cons_self.mpr hlt
    · intro path hpath path' hpath'
      obtain ⟨rest, -, rfl⟩ := List.mem_map.mp hpath
      obtain ⟨k, rest', -, rfl, -⟩ := (mem_pathsFrom_iff ns (i + 1) path').mp hpath'
      exact List.cons_lt_cons_iff.mpr (.inl (by omega))

end

end Node

namespace Walk

/-- What a visit passes in `k` steps, and the visit after them. One that is over passes nothing. -/
def advance : Nat → Walk → List Node × Walk
  | 0, w => ([], w)
  | k + 1, w =>
    match w.next? with
    | none => ([], w)
    | some (n, w') => (n :: (advance k w').1, (advance k w').2)

/-- A step of a visit passes the first of the nodes that its trees have in document order. -/
theorem preorderAll_pending_of_next? {w w' : Walk} {n : Node} (h : w.next? = some (n, w')) :
    Node.preorderAll w.pending = n :: Node.preorderAll w'.pending := by
  unfold next? at h
  split at h
  · cases h
  · next m ms hpending =>
    cases h
    rw [hpending, Node.preorderAll, Node.preorder_eq, Node.preorderAll_append, List.cons_append]

/-- A visit is over when its trees have no more nodes. -/
theorem next?_eq_none_iff {w : Walk} : w.next? = none ↔ Node.preorderAll w.pending = [] := by
  cases hnext : w.next? with
  | none =>
    unfold next? at hnext
    split at hnext
    · next hpending => simp [hpending, Node.preorderAll]
    · cases hnext
  | some step => simp [preorderAll_pending_of_next? hnext]

/-- What a visit still passes are the nodes of the trees on its stack, one tree after the other. -/
theorem toList_eq (w : Walk) : w.toList = Node.preorderAll w.pending := by
  induction w using toList.induct with
  | case1 w hnone =>
    rw [toList]
    split
    · exact (next?_eq_none_iff.mp hnone).symm
    · next hsome => rw [hnone] at hsome; cases hsome
  | case2 w n w' hnext ih =>
    rw [toList]
    split
    · next hnone => rw [hnext] at hnone; cases hnone
    · next hsome =>
      rw [hnext] at hsome
      cases hsome
      rw [ih, preorderAll_pending_of_next? hnext]

/-- What a visit passes in some steps and what is left after them are the nodes of its trees. -/
theorem advance_eq (k : Nat) (w : Walk) :
    (w.advance k).1 = (Node.preorderAll w.pending).take k ∧
      Node.preorderAll (w.advance k).2.pending = (Node.preorderAll w.pending).drop k := by
  induction k generalizing w with
  | zero => exact ⟨rfl, rfl⟩
  | succ k ih =>
    rw [advance]
    cases hnext : w.next? with
    | none =>
      have hover := next?_eq_none_iff.mp hnext
      exact ⟨by rw [hover, List.take_nil], by rw [hover, List.drop_nil]⟩
    | some step =>
      obtain ⟨hpassed, hleft⟩ := ih step.2
      rw [preorderAll_pending_of_next? hnext, List.take_succ_cons, List.drop_succ_cons]
      exact ⟨congrArg _ hpassed, hleft⟩

/-- A visit from the root of a tree passes its nodes in document order. These are the nodes at the
paths of the tree, which ascend, so that a node comes before its children, these come from left to
right, and each node comes once. After any number of steps the visit has passed as many of them,
what is left are the trees on the stack from top to bottom, and after as many steps as the tree has
nodes the visit is over. -/
theorem toList_start_inOrder (root : Node) :
    (start root).toList = root.preorder ∧
    (root.paths.map root.at? = (start root).toList.map some ∧ root.paths.Pairwise (· < ·) ∧
      ∀ path, path ∈ root.paths ↔ (root.at? path).isSome = true) ∧
    ∀ k, let (passed, w) := (start root).advance k
      passed = root.preorder.take k ∧ w.toList = w.pending.flatMap Node.preorder ∧
        passed ++ w.toList = root.preorder ∧ (w.next? = none ↔ root.size ≤ k) := by
  have hpending : Node.preorderAll (start root).pending = root.preorder := by
    simp [start, Node.preorderAll]
  have hlist : (start root).toList = root.preorder := by rw [toList_eq, hpending]
  refine ⟨hlist, ⟨?_, Node.pairwise_paths root, Node.mem_paths_iff root⟩, fun k ↦ ?_⟩
  · rw [hlist, Node.map_at?_paths]
  · obtain ⟨hpassed, hleft⟩ := (start root).advance_eq k
    rw [hpending] at hpassed hleft
    refine ⟨hpassed, ?_, ?_, ?_⟩
    · rw [toList_eq, Node.preorderAll_eq_flatMap]
    · rw [toList_eq, hpassed, hleft, List.take_append_drop]
    · rw [next?_eq_none_iff, hleft, List.drop_eq_nil_iff, Node.length_preorder]

end Walk

end FencedCode
