import Constituency.Proofs.ParseTree.Walk
import Constituency.Proofs.Span

/-!
# Nodes and their spans

The span of a node is located in a sentence if the words under the node are just
those of the sentence on the span, and the spans of its children fill it from
left to right.  In a tree of located nodes, a node that a walk visits later lies
below the earlier one, or has all of its words to the right of it.
-/

namespace Constituency

namespace ParseTree

/-- The span of the node is where the words under it stand in the sentence. -/
structure Located (words : List String) (node : ParseTree) : Prop where
  proper : node.span.start < node.span.stop
  within : node.span.stop ≤ words.length
  leaves_eq : node.leaves = node.span.slice words
  single : node.isLeaf → node.span.stop = node.span.start + 1
  tiles : node.isBranch →
    Span.Tiles node.span (node.children.map ParseTree.span)

/-- A walk visits the second node after the first one, either below it or to the
right of it. -/
def BelowOrRight (first second : ParseTree) : Prop :=
  second ∈ preorderList first.children ∨ first.span.LeftOf second.span

variable {words : List String}

theorem within_of_mem_preorder (tree : ParseTree)
    (located : ∀ node ∈ tree.preorder, node.Located words) :
    ∀ node ∈ tree.preorder, node.span.Within tree.span := by
  induction tree using ParseTree.induction with
  | leaf word span =>
      intro node member
      obtain rfl := List.mem_singleton.mp member
      exact ⟨Nat.le_refl _, Nat.le_refl _⟩
  | branch label span children ih =>
      rw [preorder, List.forall_mem_cons] at located ⊢
      refine ⟨⟨Nat.le_refl _, Nat.le_refl _⟩, fun node member => ?_⟩
      obtain ⟨child, childMember, member⟩ := mem_preorderList.mp member
      have below : ∀ node ∈ child.preorder, node.Located words :=
        fun node member =>
          located.2 node (mem_preorderList.mpr ⟨child, childMember, member⟩)
      have inner := ih child childMember below node member
      have outer := (located.1.tiles rfl).within child.span
        (List.mem_map_of_mem childMember)
      exact ⟨Nat.le_trans outer.1 inner.1, Nat.le_trans inner.2 outer.2⟩

theorem pairwise_preorder (tree : ParseTree)
    (located : ∀ node ∈ tree.preorder, node.Located words) :
    tree.preorder.Pairwise BelowOrRight := by
  induction tree using ParseTree.induction with
  | leaf word span => exact List.pairwise_singleton _ _
  | branch label span children ih =>
      rw [preorder, List.forall_mem_cons] at located
      have below : ∀ child ∈ children, ∀ node ∈ child.preorder,
          node.Located words := fun child childMember node member =>
        located.2 node (mem_preorderList.mpr ⟨child, childMember, member⟩)
      have siblings : children.Pairwise fun left right =>
          left.span.LeftOf right.span :=
        List.pairwise_map.mp (located.1.tiles rfl).pairwise_leftOf
      refine .cons (fun node member => .inl member) ?_
      rw [preorderList_eq_flatMap, List.pairwise_flatMap]
      refine ⟨fun child member => ih child member (below child member), ?_⟩
      -- Nodes of different children are as far apart as the children are.
      apply siblings.imp_of_mem
      intro left right leftMember rightMember apart first member second member'
      have firstWithin :=
        within_of_mem_preorder left (below left leftMember) first member
      have secondWithin :=
        within_of_mem_preorder right (below right rightMember) second member'
      exact .inr (Nat.le_trans firstWithin.2
        (Nat.le_trans apart secondWithin.1))

end ParseTree

end Constituency
