import Constituency.Proofs.Forest.Chain
import Constituency.Proofs.Parse.Trees

/-!
# The spans of trees

The spans of a tree of a cell follow from its words: a node takes as many tokens
as it has words, and the children of a node stand side by side from where the
node begins.  So a tree is known by its shape and the place where it begins.
-/

namespace Constituency

namespace BareTree

mutual

/-- The tree with the spans that its nodes have if it begins at the given
place. -/
def placed (start : Nat) : BareTree → ParseTree
  | .leaf word => .leaf word ⟨start, start + 1⟩
  | .branch label children =>
      .branch label ⟨start, start + (wordsList children).length⟩
        (placedList start children)

/-- Trees side by side, of which the first one begins at the given place. -/
def placedList (start : Nat) : List BareTree → List ParseTree
  | [] => []
  | tree :: rest =>
      tree.placed start :: placedList (start + tree.words.length) rest

end

end BareTree

namespace Chart

variable {chart : Chart} {span : Span} {rhs children : List Nat}

/-- The trees of a cell have the spans that they have if they begin with the
cell. -/
def Placed (chart : Chart) (number : Nat) : Prop :=
  ∀ {cell : Cell}, chart.cells[number]? = some cell →
    ∀ tree ∈ chart.trees number,
      tree = tree.bare.placed cell.span.start ∧
        cell.span.start + tree.bare.words.length = cell.span.stop

theorem Tiled.placedList_eq (tiled : Tiled chart.cellAt? rhs span children)
    (indexed : chart.Indexed) (within : span.stop ≤ chart.words.size)
    (known : ∀ symbol ∈ rhs, symbol < chart.grammar.symbolCount)
    (placed : ∀ child ∈ children, chart.Placed child) {trees : List ParseTree}
    (grown : List.Forall₂ (fun tree child => tree ∈ chart.trees child)
      trees children) :
    trees = BareTree.placedList span.start (trees.map ParseTree.bare) ∧
      span.start + (BareTree.wordsList (trees.map ParseTree.bare)).length =
        span.stop := by
  induction tiled generalizing trees with
  | nil =>
      cases grown
      exact ⟨rfl, rfl⟩
  | @cons start middle stop child symbol rest children proper found below ih =>
      rcases grown with _ | ⟨member, grown⟩
      rename_i tree trees
      have room := below.length_le
      dsimp only at within room ih
      have admitted : chart.Admits ⟨start, middle⟩ symbol :=
        admits_of_within (Nat.le_of_lt proper) (by dsimp only; omega)
          (known symbol (by simp))
      obtain ⟨contents, opened, spanEq, _⟩ :=
        indexed.exists_cell admitted found
      obtain ⟨treeEq, treeStop⟩ := placed child (by simp) opened tree member
      rw [spanEq] at treeEq treeStop
      dsimp only at treeEq treeStop
      obtain ⟨restEq, restStop⟩ := ih within
        (fun symbol member => known symbol (by simp [member]))
        (fun child member => placed child (by simp [member])) grown
      rw [List.map_cons, BareTree.placedList, BareTree.wordsList,
        List.length_append, ← Nat.add_assoc, treeStop, ← treeEq, ← restEq]
      exact ⟨rfl, restStop⟩

theorem Filled.placed (filled : chart.Filled) :
    ∀ number < chart.size, chart.Placed number := by
  obtain ⟨level, graded⟩ := filled.exists_graded
  refine graded.induction fun number cell opened below => ?_
  intro cell' opened' tree member
  obtain rfl : cell = cell' := Option.some.inj (opened.symm.trans opened')
  obtain ⟨derivation, listed, trees, rfl, parts⟩ :=
    exists_derivation_of_mem_trees graded opened member
  have within := (filled.indexed.admits opened).stop_le
  have builds := (filled.mem_iff opened).mp listed
  cases builds with
  | lexical _ _ _ single =>
      rcases parts with ⟨_, word, rfl⟩ | ⟨nonempty, _⟩
      · obtain ⟨symbol, ⟨start, stop⟩, derivations⟩ := cell
        dsimp only at single
        subst stop
        exact ⟨rfl, rfl⟩
      · exact absurd rfl nonempty
  | syntactic numbered nonempty tiled =>
      rcases parts with ⟨noChildren, _⟩ | ⟨_, grown⟩
      · dsimp only at noChildren
        have sameLength := tiled.length_eq
        rw [noChildren] at sameLength
        exact absurd (List.length_eq_zero_iff.mp sameLength.symm) nonempty
      · obtain ⟨treesEq, stopEq⟩ := tiled.placedList_eq filled.indexed within
          (filled.wellFormed.known numbered).2
          (fun child isChild =>
            below child ⟨cell, opened, _, listed, isChild⟩) grown
        rw [ParseTree.bare_branch, BareTree.placed, ← treesEq, stopEq]
        exact ⟨rfl, stopEq⟩

/-- The trees of the sentence are its trees without spans, each placed at the
beginning. -/
theorem Filled.allTrees_eq (filled : chart.Filled) :
    Forest.allTrees ⟨chart⟩ = chart.rootTrees.map (BareTree.placed 0) := by
  rw [← Forest.map_bare_allTrees ⟨chart⟩, List.map_map]
  conv_lhs => rw [← List.map_id (Forest.allTrees ⟨chart⟩)]
  apply List.map_congr_left
  intro tree member
  unfold Forest.allTrees at member
  split at member
  · simp at member
  · rename_i root found
    obtain ⟨cell, opened, spanEq, _⟩ := filled.exists_root_cell found
    have placed :=
      (filled.placed root (lt_size_of_getElem? opened) opened tree member).1
    rwa [spanEq] at placed

end Chart

end Constituency
