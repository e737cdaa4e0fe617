import Constituency.Proofs.ParseTree.Chunk
import Constituency.Proofs.ParseTree.Path

/-!
# The innermost phrases of a tree

A phrase is innermost for its label if no phrase with this label stands below it,
at any depth.  Phrases are told apart by the paths to them, as equal phrases may
stand at several places.  From any phrase, going down to one with the same label
as long as there is one ends at an innermost phrase, so each phrase holds a chunk
of its label or is one.
-/

namespace Constituency

namespace ParseTree

/-- A branch with the label stands at the end of the path. -/
def LabelledAt (label : String) (tree : ParseTree) (path : List Nat) : Prop :=
  ∃ span children, tree.nodeAt? path = some (.branch label span children)

/-- A branch with the label stands at the end of the path, and none stands
anywhere below it. -/
structure InnermostAt (label : String) (tree : ParseTree) (path : List Nat) :
    Prop where
  labelled : tree.LabelledAt label path
  none_below : ∀ below, below ≠ [] → ¬ tree.LabelledAt label (path ++ below)

variable {label : String} {tree child node : ParseTree}
variable {path rest : List Nat} {number : Nat}

theorem isLabelled_iff :
    node.isLabelled label = true ↔
      ∃ span children, node = .branch label span children := by
  cases node with
  | leaf word span => simp [isLabelled, label?]
  | branch label' span children => simp [isLabelled, label?]

theorem labelledAt_iff :
    tree.LabelledAt label path ↔
      ∃ node, tree.nodeAt? path = some node ∧ node.isLabelled label = true := by
  constructor
  · rintro ⟨span, children, reached⟩
    exact ⟨_, reached, isLabelled_iff.mpr ⟨span, children, rfl⟩⟩
  · rintro ⟨node, reached, labelled⟩
    obtain ⟨span, children, rfl⟩ := isLabelled_iff.mp labelled
    exact ⟨span, children, reached⟩

theorem labelledAt_append_iff (reached : tree.nodeAt? path = some node)
    (below : List Nat) :
    tree.LabelledAt label (path ++ below) ↔ node.LabelledAt label below := by
  simp only [LabelledAt, nodeAt?_append, reached, Option.bind_some]

theorem labelledAt_cons_iff :
    tree.LabelledAt label (number :: rest) ↔
      ∃ child, tree.children[number]? = some child ∧
        child.LabelledAt label rest := by
  simp only [labelledAt_iff, nodeAt?_cons_eq_some_iff]
  exact ⟨fun ⟨node, ⟨child, childAt, reached⟩, labelled⟩ =>
      ⟨child, childAt, node, reached, labelled⟩,
    fun ⟨child, childAt, node, reached, labelled⟩ =>
      ⟨node, ⟨child, childAt, reached⟩, labelled⟩⟩

/-- The test by which chunks are selected says that a node is innermost. -/
theorem innermostAt_iff (reached : tree.nodeAt? path = some node) :
    tree.InnermostAt label path ↔ node.isInnermost label = true := by
  have labelled : tree.LabelledAt label path ↔ node.isLabelled label = true := by
    simp [labelledAt_iff, reached]
  have clear : (∀ below, below ≠ [] → ¬ tree.LabelledAt label (path ++ below)) ↔
      ∀ inner ∈ preorderList node.children, inner.isLabelled label = false := by
    simp only [labelledAt_append_iff reached, labelledAt_iff,
      mem_preorderList_children_iff]
    constructor
    · rintro none inner ⟨below, nonempty, innerReached⟩
      rw [Bool.eq_false_iff]
      exact fun innerLabelled =>
        none below nonempty ⟨inner, innerReached, innerLabelled⟩
    · rintro none below nonempty ⟨inner, innerReached, innerLabelled⟩
      simp [none inner ⟨below, nonempty, innerReached⟩] at innerLabelled
  rw [isInnermost_iff, ← labelled, ← clear]
  exact ⟨fun innermost => ⟨innermost.labelled, innermost.none_below⟩,
    fun conditions => ⟨conditions.1, conditions.2⟩⟩

theorem InnermostAt.cons (childAt : tree.children[number]? = some child)
    (innermost : child.InnermostAt label rest) :
    tree.InnermostAt label (number :: rest) where
  labelled := labelledAt_cons_iff.mpr ⟨child, childAt, innermost.labelled⟩
  none_below := by
    intro below nonempty labelled
    obtain ⟨other, otherAt, labelled⟩ := labelledAt_cons_iff.mp labelled
    obtain rfl := Option.some.inj (childAt.symm.trans otherAt)
    exact innermost.none_below below nonempty labelled

/-- No innermost branch stands below another. -/
theorem InnermostAt.eq_of_above {first second : List Nat}
    (innermost : tree.InnermostAt label first)
    (labelled : tree.LabelledAt label second) (above : first <+: second) :
    first = second := by
  obtain ⟨below, rfl⟩ := above
  by_contra different
  exact innermost.none_below below
    (fun empty => different (by rw [empty, List.append_nil])) labelled

/-- Below each branch with the label, or at it, stands an innermost one. -/
theorem exists_innermostAt (labelled : tree.LabelledAt label path) :
    ∃ below, tree.InnermostAt label (path ++ below) := by
  -- A path into a child is followed there.  At the root, either nothing more is
  -- labelled or the path to something labelled below leads into a child.
  induction tree using ParseTree.induction generalizing path with
  | leaf word span =>
      obtain ⟨_, _, reached⟩ := labelled
      cases path <;> simp [nodeAt?_cons, children] at reached
  | branch rootLabel span children ih =>
      have inChild : ∀ number rest,
          (branch rootLabel span children).LabelledAt label (number :: rest) →
          ∃ below, (branch rootLabel span children).InnermostAt label
            (number :: rest ++ below) := by
        intro number rest labelled
        obtain ⟨child, childAt, labelled⟩ := labelledAt_cons_iff.mp labelled
        obtain ⟨below, innermost⟩ :=
          ih child (List.mem_of_getElem? childAt) labelled
        exact ⟨below, innermost.cons childAt⟩
      cases path with
      | cons number rest => exact inChild number rest labelled
      | nil =>
          by_cases clear : ∀ below, below ≠ [] →
              ¬ (branch rootLabel span children).LabelledAt label below
          · exact ⟨[], labelled, clear⟩
          · push Not at clear
            obtain ⟨inner, nonempty, innerLabelled⟩ := clear
            obtain ⟨number, rest, rfl⟩ := List.exists_cons_of_ne_nil nonempty
            obtain ⟨below, innermost⟩ := inChild number rest innerLabelled
            exact ⟨_, innermost⟩

/-- The paths to the innermost branches with a label, in the order of a walk. -/
def innermostPaths (label : String) (tree : ParseTree) : List (List Nat) :=
  tree.paths.filter fun path => (tree.nodeAt? path).any (isInnermost label)

theorem mem_innermostPaths_iff :
    path ∈ tree.innermostPaths label ↔ tree.InnermostAt label path := by
  rw [innermostPaths, List.mem_filter, mem_paths_iff]
  constructor
  · rintro ⟨⟨node, reached⟩, passes⟩
    rw [reached, Option.any_some] at passes
    exact (innermostAt_iff reached).mpr passes
  · intro innermost
    obtain ⟨node, reached, _⟩ := labelledAt_iff.mp innermost.labelled
    rw [reached, Option.any_some]
    exact ⟨⟨node, rfl⟩, (innermostAt_iff reached).mp innermost⟩

/-- The chunks for a label are the nodes at the paths to the innermost branches
with the label, each of these paths taken once and in the order of a walk.  No
such path goes on to another, the path to any branch with the label goes on to
one, and there are no chunks just when there are no branches with the label. -/
theorem minimalChunks_exact (label : String) (tree : ParseTree) :
    ∃ chunkPaths : List (List Nat),
      (tree.minimalChunks label).map some = chunkPaths.map tree.nodeAt? ∧
      chunkPaths.Pairwise (· < ·) ∧
      (∀ path, path ∈ chunkPaths ↔ tree.InnermostAt label path) ∧
      (∀ first ∈ chunkPaths, ∀ second ∈ chunkPaths,
        first <+: second → first = second) ∧
      (∀ path, tree.LabelledAt label path →
        ∃ below, path ++ below ∈ chunkPaths) ∧
      (tree.minimalChunks label = [] ↔
        ∀ path, ¬ tree.LabelledAt label path) := by
  have chunks : (tree.minimalChunks label).map some =
      (tree.innermostPaths label).map tree.nodeAt? := by
    rw [minimalChunks_eq, innermostPaths, map_nodeAt?_filter_paths]
  have empty : tree.minimalChunks label = [] ↔
      tree.innermostPaths label = [] := by
    rw [← List.map_eq_nil_iff (f := some), chunks, List.map_eq_nil_iff]
  refine ⟨tree.innermostPaths label, chunks, (pairwise_paths tree).filter _,
    fun path => mem_innermostPaths_iff, ?_, ?_, ?_⟩
  · intro first firstMember second secondMember above
    exact (mem_innermostPaths_iff.mp firstMember).eq_of_above
      (mem_innermostPaths_iff.mp secondMember).labelled above
  · intro path labelled
    obtain ⟨below, innermost⟩ := exists_innermostAt labelled
    exact ⟨below, mem_innermostPaths_iff.mpr innermost⟩
  · rw [empty, List.eq_nil_iff_forall_not_mem]
    constructor
    · intro none path labelled
      obtain ⟨below, innermost⟩ := exists_innermostAt labelled
      exact none _ (mem_innermostPaths_iff.mpr innermost)
    · intro none path member
      exact none path (mem_innermostPaths_iff.mp member).labelled

/-- A noun phrase of one word, which reads as its label, stands in a tree twice. -/
def repeatedPhrase : ParseTree :=
  let phrase := .branch "NP" ⟨0, 1⟩ [.leaf "NP" ⟨0, 1⟩]
  .branch "S" ⟨0, 1⟩ [phrase, .branch "NP" ⟨0, 1⟩ [phrase]]

/-- The phrase that stands twice is two chunks, and its word none. -/
theorem minimalChunks_exact_repeatedPhrase :
    ∃ chunkPaths : List (List Nat), chunkPaths.length = 2 ∧
      (∀ path ∈ chunkPaths, repeatedPhrase.InnermostAt "NP" path) ∧
      [0] ∈ chunkPaths ∧ [1, 0] ∈ chunkPaths := by
  have chunks : (repeatedPhrase.minimalChunks "NP").length = 2 := by
    rw [minimalChunks_eq]
    decide
  obtain ⟨chunkPaths, reached, _, innermost, _⟩ :=
    minimalChunks_exact "NP" repeatedPhrase
  refine ⟨chunkPaths, ?_, fun path => (innermost path).mp,
    (innermost [0]).mpr ?_, (innermost [1, 0]).mpr ?_⟩
  · have counted := congrArg List.length reached
    rw [List.length_map, List.length_map, chunks] at counted
    exact counted.symm
  · rw [innermostAt_iff rfl]
    decide
  · rw [innermostAt_iff rfl]
    decide

end ParseTree

end Constituency
