import Constituency.Proofs.Parse.Placement
import Constituency.Proofs.ParseTree.Location

/-!
# The spans of parsed trees

The nodes of a parsed tree get their spans from the chart, and a leaf gets its
word from a production.  Both agree with the sentence: the spans follow from the
words of the tree, and these are the words of the sentence.
-/

namespace Constituency

namespace BareTree

variable {words : List String} {grammar : Grammar}

@[simp]
theorem span_placed (tree : BareTree) (start : Nat) :
    (tree.placed start).span = ⟨start, start + tree.words.length⟩ := by
  cases tree <;> rfl

mutual

theorem words_placed (start : Nat) :
    (tree : BareTree) → (tree.placed start).words = tree.words
  | .leaf _ => rfl
  | .branch _ children => words_placedList start children

theorem words_placedList (start : Nat) :
    (trees : List BareTree) →
      ParseTree.wordsList (placedList start trees) = wordsList trees
  | [] => rfl
  | tree :: rest => by
      rw [placedList, ParseTree.wordsList, words_placed, words_placedList,
        wordsList]

end

theorem tiles_placedList {trees : List BareTree} (start : Nat)
    (inhabited : ∀ tree ∈ trees, tree.words ≠ []) :
    Span.Tiles ⟨start, start + (wordsList trees).length⟩
      ((placedList start trees).map ParseTree.span) := by
  induction trees generalizing start with
  | nil => exact .nil start
  | cons tree rest ih =>
      obtain ⟨nonempty, restInhabited⟩ := List.forall_mem_cons.mp inhabited
      have proper := List.length_pos_iff.mpr nonempty
      rw [placedList, List.map_cons, span_placed, wordsList, List.length_append,
        ← Nat.add_assoc]
      exact .cons (Nat.lt_add_of_pos_right proper) (ih _ restInhabited)

/-- If the words of trees stand in the sentence side by side, then those of each
tree stand where it is placed. -/
theorem exists_of_mem_placedList {trees : List BareTree} {start : Nat}
    (stands : wordsList trees <+: words.drop start) {placed : ParseTree}
    (member : placed ∈ placedList start trees) :
    ∃ tree ∈ trees, ∃ place, placed = tree.placed place ∧
      tree.words <+: words.drop place := by
  induction trees generalizing start with
  | nil => simp [placedList] at member
  | cons tree rest ih =>
      rw [wordsList] at stands
      rw [placedList] at member
      rcases List.mem_cons.mp member with rfl | member
      · exact ⟨tree, by simp, start, rfl,
          (List.prefix_append _ _).trans stands⟩
      · have restStands : wordsList rest <+:
            words.drop (start + tree.words.length) := by
          obtain ⟨after, whole⟩ := stands
          rw [← List.drop_drop, ← whole, List.append_assoc, List.drop_left]
          exact List.prefix_append _ _
        obtain ⟨other, otherMember, place, placedEq, otherStands⟩ :=
          ih restStands member
        exact ⟨other, by simp [otherMember], place, placedEq, otherStands⟩

/-- The root of a placed tree has the span of the words of the tree. -/
theorem Conforms.root_placed {tree : BareTree} (conforms : tree.Conforms grammar)
    (wellFormed : grammar.WellFormed) {start : Nat}
    (stands : tree.words <+: words.drop start) :
    (tree.placed start).span.start < (tree.placed start).span.stop ∧
      (tree.placed start).span.stop ≤ words.length ∧
      (tree.placed start).leaves = (tree.placed start).span.slice words := by
  have inhabited := List.length_pos_iff.mpr (conforms.words_ne_nil wellFormed)
  have room := stands.length_le
  rw [List.length_drop] at room
  rw [span_placed, ParseTree.leaves_eq, words_placed]
  refine ⟨Nat.lt_add_of_pos_right inhabited, by dsimp only; omega, ?_⟩
  rw [Span.slice, Span.length, Nat.add_sub_cancel_left]
  exact List.prefix_iff_eq_take.mp stands

/-- Placed where its words stand in the sentence, a conforming tree has located
nodes only. -/
theorem Conforms.located {tree : BareTree} (conforms : tree.Conforms grammar)
    (wellFormed : grammar.WellFormed) {start : Nat}
    (stands : tree.words <+: words.drop start) :
    ∀ node ∈ (tree.placed start).preorder, node.Located words := by
  induction conforms generalizing start with
  | leaf word =>
      intro node member
      obtain rfl := List.mem_singleton.mp member
      obtain ⟨proper, within, read⟩ :=
        (Conforms.leaf word).root_placed wellFormed stands
      exact ⟨proper, within, read, fun _ => rfl, by simp [ParseTree.isBranch]⟩
  | @branch label children listed below ih =>
      rw [ParseTree.preorder_eq, List.forall_mem_cons]
      obtain ⟨proper, within, read⟩ :=
        (Conforms.branch listed below).root_placed wellFormed stands
      refine ⟨⟨proper, within, read, by simp [placed, ParseTree.isLeaf],
        fun _ => ?_⟩, fun node member => ?_⟩
      · exact tiles_placedList start fun child member =>
          (below child member).words_ne_nil wellFormed
      · obtain ⟨placed, placedMember, member⟩ :=
          ParseTree.mem_preorderList.mp member
        obtain ⟨child, childMember, place, rfl, childStands⟩ :=
          exists_of_mem_placedList stands placedMember
        exact ih child childMember childStands node member

end BareTree

namespace Grammar

variable {start : String} {productions : List Production} {grammar : Grammar}
variable {words : List String} {limit : Nat} {trees : List ParseTree}

/-- A parsed tree is a derivation tree of the sentence, placed at its
beginning. -/
theorem exists_placed_of_mem
    (accepted : ofProductions start productions = .ok grammar)
    (parsed : grammar.parse words limit = .ok trees) {tree : ParseTree}
    (member : tree ∈ trees) :
    ∃ bare : BareTree, bare.Derives grammar grammar.start words ∧
      tree = bare.placed 0 := by
  have wellFormed := wellFormed_of_ofProductions accepted
  rw [eq_allTrees_of_parse_eq_ok parsed,
    (Chart.filled_fill wellFormed words.toArray).allTrees_eq] at member
  obtain ⟨bare, listed, rfl⟩ := List.mem_map.mp member
  exact ⟨bare, (mem_rootTrees_fill_iff wellFormed).mp listed, rfl⟩

theorem located_of_mem
    (accepted : ofProductions start productions = .ok grammar)
    (parsed : grammar.parse words limit = .ok trees) {tree : ParseTree}
    (member : tree ∈ trees) : ∀ node ∈ tree.preorder, node.Located words := by
  obtain ⟨bare, derives, rfl⟩ := exists_placed_of_mem accepted parsed member
  apply derives.conforms.located (wellFormed_of_ofProductions accepted)
  rw [derives.words_eq, List.drop_zero]

/-- The spans of a parsed tree are true: the root has the span of the sentence,
and every node has the span on which the words under it stand, filled by the
spans of its children from left to right. -/
theorem parse_located
    (accepted : ofProductions start productions = .ok grammar)
    (parsed : grammar.parse words limit = .ok trees) :
    ∀ tree ∈ trees, tree.span = ⟨0, words.length⟩ ∧
      ∀ node ∈ tree.preorder, node.Located words := by
  intro tree member
  refine ⟨?_, located_of_mem accepted parsed member⟩
  obtain ⟨bare, derives, rfl⟩ := exists_placed_of_mem accepted parsed member
  rw [BareTree.span_placed, derives.words_eq, Nat.zero_add]

/-- The tree of three words whose left part is shorter. -/
def rightward : ParseTree :=
  .branch "S" ⟨0, 3⟩ [single 0, .branch "S" ⟨1, 3⟩ [single 1, single 2]]

/-- The tree of three words whose right part is shorter. -/
def leftward : ParseTree :=
  .branch "S" ⟨0, 3⟩ [.branch "S" ⟨0, 2⟩ [single 0, single 1], single 2]

theorem parse_sequences :
    sequences.parse ["x", "x", "x"] 2 = .ok [rightward, leftward] := by
  decide +kernel

theorem parse_located_sequences :
    rightward.span = ⟨0, 3⟩ ∧
      ∀ node ∈ rightward.preorder, node.Located ["x", "x", "x"] :=
  parse_located ofProductions_sequences parse_sequences rightward (by simp)

end Grammar

end Constituency
