import Constituency.ParseTree.Walk
import Constituency.Proofs.ParseTree.Location

/-!
# The chunks of a tree

The chunks of a tree for a label are the branches with this label that have none
of the same label below them, in the order of a walk.  As no chunk lies below
another, the chunks of a tree of located nodes follow one another from left to
right.
-/

namespace Constituency

namespace ParseTree

variable {words : List String}

/-- Whether the root is a branch with the label and no node below it is one. -/
def isInnermost (label : String) (node : ParseTree) : Bool :=
  node.isLabelled label &&
    (preorderList node.children).all (!isLabelled label ·)

theorem isInnermost_iff {label : String} {node : ParseTree} :
    node.isInnermost label = true ↔ node.isLabelled label = true ∧
      ∀ inner ∈ preorderList node.children,
        inner.isLabelled label = false := by
  simp [isInnermost]

theorem minimalChunks_eq (label : String) (tree : ParseTree) :
    tree.minimalChunks label = tree.preorder.filter (isInnermost label) := by
  rw [minimalChunks, subtrees_eq, List.filter_filter]
  apply List.filter_congr
  intro node _
  have below : node.children.all (hasNone (isLabelled label)) =
      (preorderList node.children).all (!isLabelled label ·) := by
    rw [Bool.eq_iff_iff]
    simp only [List.all_eq_true, hasNone_iff, mem_preorderList,
      Bool.not_eq_true']
    constructor
    · rintro none inner ⟨child, childMember, member⟩
      exact none child childMember inner member
    · intro none child childMember inner member
      exact none inner ⟨child, childMember, member⟩
  rw [below, isInnermost, Bool.and_comm]

theorem mem_minimalChunks_iff {label : String} {tree chunk : ParseTree} :
    chunk ∈ tree.minimalChunks label ↔
      chunk ∈ tree.preorder ∧ chunk.isLabelled label = true ∧
        ∀ inner ∈ preorderList chunk.children,
          inner.isLabelled label = false := by
  rw [minimalChunks_eq, List.mem_filter, isInnermost_iff]

theorem pairwise_minimalChunks {tree : ParseTree} (label : String)
    (located : ∀ node ∈ tree.preorder, node.Located words) :
    (tree.minimalChunks label).Pairwise fun first second =>
      first.span.LeftOf second.span := by
  have visited : (tree.minimalChunks label).Pairwise BelowOrRight := by
    rw [minimalChunks_eq]
    exact (pairwise_preorder tree located).filter _
  apply visited.imp_of_mem
  intro first second firstMember secondMember belowOrRight
  obtain ⟨_, _, noneBelow⟩ := mem_minimalChunks_iff.mp firstMember
  obtain ⟨_, labelled, _⟩ := mem_minimalChunks_iff.mp secondMember
  rcases belowOrRight with below | right
  · simp [noneBelow second below] at labelled
  · exact right

end ParseTree

end Constituency
