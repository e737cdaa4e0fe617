import Constituency.Proofs.ParseTree.Basic
import Mathlib.Data.List.Basic

/-!
# Paths to the nodes of a tree

Equal subtrees may stand at several places of a tree, so what tells two nodes
apart is the path from the root, as the numbers of the children along it.  In the
lexicographic order of paths a node stands before those below it, and what is
below one child before what is below the next: the paths in increasing order
lead through the tree as a walk does.
-/

namespace Constituency

namespace ParseTree

/-- The node at the end of a path, if the path stays in the tree. -/
def nodeAt? : ParseTree → List Nat → Option ParseTree
  | tree, [] => some tree
  | tree, number :: rest =>
      tree.children[number]?.bind fun child => child.nodeAt? rest

mutual

/-- The paths to all nodes, in the order in which a walk visits the nodes. -/
def paths : ParseTree → List (List Nat)
  | .leaf .. => [[]]
  | .branch _ _ children => [] :: pathsList 0 children

/-- The paths to the nodes of several trees, the roots of which are numbered in
order from some number on. -/
def pathsList (number : Nat) : List ParseTree → List (List Nat)
  | [] => []
  | tree :: rest =>
      tree.paths.map (number :: ·) ++ pathsList (number + 1) rest

end

variable {tree node inner : ParseTree} {path rest : List Nat} {number : Nat}

@[simp]
theorem nodeAt?_nil (tree : ParseTree) : tree.nodeAt? [] = some tree := by
  cases tree <;> rfl

theorem nodeAt?_cons (tree : ParseTree) (number : Nat) (rest : List Nat) :
    tree.nodeAt? (number :: rest) =
      tree.children[number]?.bind fun child => child.nodeAt? rest := by
  cases tree <;> rfl

theorem nodeAt?_cons_eq_some_iff :
    tree.nodeAt? (number :: rest) = some node ↔
      ∃ child, tree.children[number]? = some child ∧
        child.nodeAt? rest = some node := by
  rw [nodeAt?_cons, Option.bind_eq_some_iff]

theorem nodeAt?_append (tree : ParseTree) (path below : List Nat) :
    tree.nodeAt? (path ++ below) =
      (tree.nodeAt? path).bind fun node => node.nodeAt? below := by
  induction path generalizing tree with
  | nil => simp
  | cons number rest ih =>
      simp only [List.cons_append, nodeAt?_cons, ih, Option.bind_assoc]

theorem pathsList_eq_flatMap (number : Nat) (trees : List ParseTree) :
    pathsList number trees = (trees.zipIdx number).flatMap fun entry =>
      entry.1.paths.map (entry.2 :: ·) := by
  induction trees generalizing number with
  | nil => rfl
  | cons tree rest ih =>
      rw [pathsList, ih, List.zipIdx_cons, List.flatMap_cons]

/-- After the path to the root come those that begin at its children, one child
after the other. -/
theorem paths_eq (tree : ParseTree) :
    tree.paths = [] :: tree.children.zipIdx.flatMap fun entry =>
      entry.1.paths.map (entry.2 :: ·) := by
  cases tree with
  | leaf => rfl
  | branch label span children =>
      rw [paths, pathsList_eq_flatMap, ParseTree.children]

theorem cons_mem_paths_iff :
    number :: rest ∈ tree.paths ↔
      ∃ child, tree.children[number]? = some child ∧ rest ∈ child.paths := by
  rw [paths_eq, List.mem_cons, or_iff_right (List.cons_ne_nil _ _),
    List.mem_flatMap]
  constructor
  · rintro ⟨⟨child, index⟩, entryMember, member⟩
    obtain ⟨below, belowMember, equal⟩ := List.mem_map.mp member
    obtain ⟨rfl, rfl⟩ := List.cons.inj equal
    exact ⟨child, List.mk_mem_zipIdx_iff_getElem?.mp entryMember, belowMember⟩
  · rintro ⟨child, childAt, member⟩
    exact ⟨(child, number), List.mk_mem_zipIdx_iff_getElem?.mpr childAt,
      List.mem_map_of_mem member⟩

theorem mem_paths_iff :
    path ∈ tree.paths ↔ ∃ node, tree.nodeAt? path = some node := by
  induction path generalizing tree with
  | nil => simp [paths_eq tree]
  | cons number rest ih =>
      simp only [cons_mem_paths_iff, nodeAt?_cons_eq_some_iff, ih]
      exact ⟨fun ⟨child, childAt, node, reached⟩ =>
          ⟨node, child, childAt, reached⟩,
        fun ⟨node, child, childAt, reached⟩ =>
          ⟨child, childAt, node, reached⟩⟩

theorem map_nodeAt?_paths (tree : ParseTree) :
    tree.paths.map tree.nodeAt? = tree.preorder.map some := by
  induction tree using ParseTree.induction with
  | leaf => rfl
  | branch label span children ih =>
      have eachChild : ∀ entry ∈ children.zipIdx,
          (entry.1.paths.map (entry.2 :: ·)).map
              (branch label span children).nodeAt? =
            entry.1.preorder.map some := by
        rintro ⟨child, number⟩ member
        have childAt : children[number]? = some child :=
          List.mk_mem_zipIdx_iff_getElem?.mp member
        rw [← ih child (List.mem_of_getElem? childAt), List.map_map]
        apply List.map_congr_left
        intro path _
        simp [nodeAt?_cons, ParseTree.children, childAt]
      rw [paths_eq, preorder_eq, preorderList_eq_flatMap, List.map_cons,
        List.map_cons, nodeAt?_nil, List.map_flatMap, List.map_flatMap]
      congr 1
      calc children.zipIdx.flatMap (fun entry =>
            (entry.1.paths.map (entry.2 :: ·)).map
              (branch label span children).nodeAt?)
          = children.zipIdx.flatMap fun entry =>
              entry.1.preorder.map some := List.flatMap_congr eachChild
        _ = (children.zipIdx.map Prod.fst).flatMap fun child =>
              child.preorder.map some := by rw [List.flatMap_map]
        _ = children.flatMap fun child => child.preorder.map some := by
              rw [List.zipIdx_map_fst]

theorem pairwise_paths (tree : ParseTree) :
    tree.paths.Pairwise (· < ·) := by
  induction tree using ParseTree.induction with
  | leaf => exact List.pairwise_singleton _ _
  | branch label span children ih =>
      rw [paths_eq]
      refine .cons (fun path member => ?_) ?_
      · obtain ⟨entry, _, member⟩ := List.mem_flatMap.mp member
        obtain ⟨below, _, rfl⟩ := List.mem_map.mp member
        exact List.nil_lt_cons _ _
      rw [List.pairwise_flatMap]
      constructor
      · rintro ⟨child, number⟩ member
        have childAt : children[number]? = some child :=
          List.mk_mem_zipIdx_iff_getElem?.mp member
        apply (ih child (List.mem_of_getElem? childAt)).map
        intro first second before
        exact List.cons_lt_cons_self.mpr before
      · -- Paths through different children already differ in the first number.
        have numbered : children.zipIdx.Pairwise fun left right =>
            left.2 < right.2 := by
          rw [← List.pairwise_map (f := Prod.snd), List.zipIdx_map_snd]
          exact List.pairwise_lt_range'
        apply numbered.imp
        intro left right before first firstMember second secondMember
        obtain ⟨_, _, rfl⟩ := List.mem_map.mp firstMember
        obtain ⟨_, _, rfl⟩ := List.mem_map.mp secondMember
        exact List.Lex.rel before

theorem mem_preorder_iff :
    node ∈ tree.preorder ↔ ∃ path, tree.nodeAt? path = some node := by
  have visited : node ∈ tree.preorder ↔
      some node ∈ tree.paths.map tree.nodeAt? := by
    rw [map_nodeAt?_paths, List.mem_map_of_injective (fun _ _ => Option.some.inj)]
  rw [visited, List.mem_map]
  exact ⟨fun ⟨path, _, reached⟩ => ⟨path, reached⟩,
    fun ⟨path, reached⟩ => ⟨path, mem_paths_iff.mpr ⟨node, reached⟩, reached⟩⟩

/-- What lies below a node is what paths of at least one number lead to. -/
theorem mem_preorderList_children_iff :
    inner ∈ preorderList node.children ↔
      ∃ below, below ≠ [] ∧ node.nodeAt? below = some inner := by
  rw [mem_preorderList]
  constructor
  · rintro ⟨child, childMember, member⟩
    obtain ⟨number, childAt⟩ := List.getElem?_of_mem childMember
    obtain ⟨path, reached⟩ := mem_preorder_iff.mp member
    exact ⟨number :: path, List.cons_ne_nil _ _,
      nodeAt?_cons_eq_some_iff.mpr ⟨child, childAt, reached⟩⟩
  · rintro ⟨below, nonempty, reached⟩
    obtain ⟨number, path, rfl⟩ := List.exists_cons_of_ne_nil nonempty
    obtain ⟨child, childAt, reached⟩ := nodeAt?_cons_eq_some_iff.mp reached
    exact ⟨child, List.mem_of_getElem? childAt,
      mem_preorder_iff.mpr ⟨path, reached⟩⟩

/-- The paths to the nodes that satisfy a test lead to just those that a walk
with this test returns. -/
theorem map_nodeAt?_filter_paths (test : ParseTree → Bool) (tree : ParseTree) :
    (tree.paths.filter fun path => (tree.nodeAt? path).any test).map
        tree.nodeAt? = (tree.preorder.filter test).map some := by
  calc (tree.paths.filter fun path => (tree.nodeAt? path).any test).map
        tree.nodeAt?
      = (tree.paths.map tree.nodeAt?).filter (Option.any test) := by
          rw [List.filter_map]; rfl
    _ = (tree.preorder.map some).filter (Option.any test) := by
          rw [map_nodeAt?_paths]
    _ = (tree.preorder.filter test).map some := by
          rw [List.filter_map]; rfl

end ParseTree

end Constituency
