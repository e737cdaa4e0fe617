import Constituency.ParseTree.Basic

/-!
# The nodes and the height of several trees

What is said of a list of trees is said of each tree in the list.
-/

namespace Constituency

namespace ParseTree

/-- What holds of leaves, and of branches over trees of which it holds, holds of
all trees. -/
@[elab_as_elim]
theorem induction {motive : ParseTree → Prop}
    (leaf : ∀ word span, motive (.leaf word span))
    (branch : ∀ label span children, (∀ child ∈ children, motive child) →
      motive (.branch label span children)) :
    (tree : ParseTree) → motive tree
  | .leaf word span => leaf word span
  | .branch label span children =>
      branch label span children fun child _ => induction leaf branch child

theorem preorderList_eq_flatMap (trees : List ParseTree) :
    preorderList trees = trees.flatMap preorder := by
  induction trees with
  | nil => rfl
  | cons tree rest ih => rw [preorderList, ih, List.flatMap_cons]

theorem mem_preorderList {node : ParseTree} {trees : List ParseTree} :
    node ∈ preorderList trees ↔ ∃ tree ∈ trees, node ∈ tree.preorder := by
  rw [preorderList_eq_flatMap, List.mem_flatMap]

theorem heightList_le_iff {trees : List ParseTree} {bound : Nat} :
    heightList trees ≤ bound ↔ ∀ tree ∈ trees, tree.height ≤ bound := by
  induction trees with
  | nil => simp [heightList]
  | cons tree rest ih =>
      rw [heightList, Nat.max_le, ih, List.forall_mem_cons]

theorem preorder_eq (tree : ParseTree) :
    tree.preorder = tree :: preorderList tree.children := by
  cases tree <;> rfl

end ParseTree

end Constituency
