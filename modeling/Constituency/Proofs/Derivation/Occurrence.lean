import Constituency.Proofs.Derivation.Reach

/-!
# Trees around a tree

If every nonterminal on the right of a production derives words, a tree of a
nonterminal that can be reached from the start symbol occurs in a tree of the
start symbol: every step on the way puts a production around the tree, and trees
of the other symbols beside it.
-/

namespace Constituency

namespace BareTree

/-- The part is the tree itself, or a tree somewhere below its root. -/
inductive Occurs (part : BareTree) : BareTree → Prop
  | root : Occurs part part
  | child {label : String} {children : List BareTree} {child : BareTree}
      (member : child ∈ children) (inner : Occurs part child) :
      Occurs part (.branch label children)

variable {grammar : Grammar} {start name : String} {symbols : List Symbol}

theorem Occurs.trans {part middle whole : BareTree}
    (inner : part.Occurs middle) (outer : middle.Occurs whole) :
    part.Occurs whole := by
  induction outer with
  | root => exact inner
  | child member _ ih => exact .child member ih

theorem exists_trees_of_yields {sentence : List String}
    (yields : Yields grammar.productions.toList symbols sentence) :
    ∃ trees : List BareTree, trees.map symbol = symbols ∧
      ∀ tree ∈ trees, tree.Conforms grammar := by
  induction yields with
  | nil => exact ⟨[], rfl, by simp⟩
  | terminal word _ ih =>
      obtain ⟨trees, roots, conform⟩ := ih
      refine ⟨.leaf word :: trees, ?_, ?_⟩
      · rw [List.map_cons, roots]
        rfl
      · exact List.forall_mem_cons.mpr ⟨.leaf word, conform⟩
  | @nonterminal production rest _ _ listed _ _ bodyIh tailIh =>
      obtain ⟨children, childRoots, childrenConform⟩ := bodyIh
      obtain ⟨trees, roots, conform⟩ := tailIh
      refine ⟨.branch production.lhs children :: trees, ?_, ?_⟩
      · rw [List.map_cons, roots]
        rfl
      · have declared :
            ⟨production.lhs, children.map symbol⟩ ∈ grammar.productions := by
          rw [childRoots]
          exact Array.mem_toList_iff.mp listed
        exact List.forall_mem_cons.mpr
          ⟨.branch declared childrenConform, conform⟩

/-- Every nonterminal on the right of a production derives words. -/
def AllProductive (grammar : Grammar) : Prop :=
  ∀ production ∈ grammar.productions.toList, ∀ name,
    .nonterminal name ∈ production.rhs →
      Productive grammar.productions.toList name

variable (allProductive : AllProductive grammar)

include allProductive

theorem exists_trees {production : Production}
    (listed : production ∈ grammar.productions.toList)
    (included : symbols ⊆ production.rhs) :
    ∃ trees : List BareTree, trees.map symbol = symbols ∧
      ∀ tree ∈ trees, tree.Conforms grammar := by
  obtain ⟨sentence, yields⟩ := exists_yields_of_productive
    fun name member => allProductive production listed name (included member)
  exact exists_trees_of_yields yields

theorem exists_tree_of_production {production : Production}
    (listed : production ∈ grammar.productions.toList) :
    ∃ children : List BareTree, children.map symbol = production.rhs ∧
      (branch production.lhs children).Conforms grammar := by
  obtain ⟨children, roots, conform⟩ :=
    exists_trees allProductive listed (List.Subset.refl production.rhs)
  refine ⟨children, roots, .branch ?_ conform⟩
  rw [roots]
  exact Array.mem_toList_iff.mp listed

/-- A tree is put among the children of a tree with the given production. -/
theorem exists_parent {part : BareTree} {production : Production}
    (listed : production ∈ grammar.productions.toList)
    (conforms : part.Conforms grammar) (member : part.symbol ∈ production.rhs) :
    ∃ tree : BareTree, tree.Conforms grammar ∧
      tree.symbol = .nonterminal production.lhs ∧ part.Occurs tree := by
  obtain ⟨front, back, split⟩ := List.append_of_mem member
  have frontIncluded : front ⊆ production.rhs := by simp [split]
  have backIncluded : back ⊆ production.rhs := by simp [split]
  obtain ⟨before, beforeRoots, beforeConform⟩ :=
    exists_trees allProductive listed frontIncluded
  obtain ⟨after, afterRoots, afterConform⟩ :=
    exists_trees allProductive listed backIncluded
  refine ⟨.branch production.lhs (before ++ part :: after), ?_, rfl, ?_⟩
  · have roots : (before ++ part :: after).map symbol = production.rhs := by
      rw [List.map_append, List.map_cons, beforeRoots, afterRoots, split]
    refine .branch ?_ ?_
    · rw [roots]
      exact Array.mem_toList_iff.mp listed
    · intro child childMember
      rcases List.mem_append.mp childMember with inFront | rest
      · exact beforeConform child inFront
      · rcases List.mem_cons.mp rest with rfl | inBack
        · exact conforms
        · exact afterConform child inBack
  · exact .child (by simp) .root

/-- A tree of a nonterminal that can be reached occurs in a tree of the start
symbol. -/
theorem exists_tree_around {part : BareTree}
    (reached : Reaches grammar.productions.toList start name)
    (conforms : part.Conforms grammar) (root : part.symbol = .nonterminal name) :
    ∃ tree : BareTree, tree.Conforms grammar ∧
      tree.symbol = .nonterminal start ∧ part.Occurs tree := by
  induction reached generalizing part with
  | refl => exact ⟨part, conforms, root, .root⟩
  | tail _ step ih =>
      obtain ⟨production, listed, rfl, member⟩ := step
      obtain ⟨parent, parentConforms, parentRoot, inner⟩ :=
        exists_parent allProductive listed conforms (root ▸ member)
      obtain ⟨tree, treeConforms, treeRoot, outer⟩ :=
        ih parentConforms parentRoot
      exact ⟨tree, treeConforms, treeRoot, inner.trans outer⟩

end BareTree

end Constituency
