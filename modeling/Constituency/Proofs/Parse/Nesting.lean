import Constituency.Proofs.Forest.Chain
import Constituency.Proofs.Forest.Guarded
import Constituency.Proofs.Parse.Trees

/-!
# How deep the trees of a sentence can be

A chain of cells of the chart of a sentence has at most as many cells as the
sentence has words times the grammar has nonterminals.  So counting and listing
trees come to an end on every cell, and the trees are no higher.
-/

namespace Constituency

namespace Chart

variable {chart : Chart}

theorem Filled.exists_of_mem_allTrees (filled : chart.Filled)
    {tree : ParseTree} (member : tree ∈ Forest.allTrees ⟨chart⟩) :
    ∃ root < chart.size, tree ∈ chart.trees root := by
  rw [Forest.allTrees] at member
  split at member
  · simp at member
  · rename_i root found
    obtain ⟨cell, opened, _⟩ := filled.exists_root_cell found
    exact ⟨root, lt_size_of_getElem? opened, member⟩

end Chart

namespace Grammar

variable {start : String} {productions : List Production} {grammar : Grammar}
variable {words : List String}

/-- The chart of a sentence has no cycles, and its chains of cells are short: no
cell stands twice in a chain, evaluating any cell comes to an end within the depth
of the longest chain, whatever has been found before, searching deeper makes no
difference, and no tree repeats a label on a span along one of its branches. -/
theorem chart_acyclic
    (accepted : ofProductions start productions = .ok grammar)
    (known : ∀ word ∈ words, grammar.Produces word) :
    ∃ chart, grammar.chart words = .ok chart ∧
      (∀ chain : List Nat, (∀ number ∈ chain, number < chart.size) →
        (chain.IsChain fun parent child => chart.Below child parent) →
        chain.Nodup ∧ chain.length ≤ words.length * grammar.symbolCount) ∧
      WellFounded chart.Below ∧
      (∀ {β : Type} [Inhabited β]
        (combine : Cell → List (Derivation × List β) → β) (number depth : Nat),
        number < chart.size → words.length * grammar.symbolCount ≤ depth →
        (∀ found : Array (Option β), found.size = chart.size →
          Chart.Guarded.evaluateWith chart combine depth number found =
            some (chart.evaluateWith combine depth number found)) ∧
        chart.evaluateWith combine depth number =
          chart.evaluateWith combine chart.size number) ∧
      ∀ (limit : Nat) (trees : List ParseTree),
        grammar.parse words limit = .ok trees → ∀ tree ∈ trees,
        (∀ node ∈ tree.preorder,
          ∀ inner ∈ ParseTree.preorderList node.children,
            ¬ (inner.label? = node.label? ∧ inner.span = node.span)) ∧
        tree.height ≤ words.length * grammar.symbolCount + 1 := by
  have wellFormed := wellFormed_of_ofProductions accepted
  have filled := Chart.filled_fill wellFormed words.toArray
  obtain ⟨level, graded, bounded⟩ := filled.exists_graded_lt
  rw [Chart.grammar_fill wellFormed, Chart.words_fill wellFormed,
    List.size_toArray] at bounded
  refine ⟨_, chart_eq_ok wellFormed known, fun chain chainKnown descends => ?_,
    graded.wellFounded, fun combine number depth numberKnown enough => ?_,
    fun limit trees parsed tree member => ?_⟩
  · exact graded.nodup_and_length_le_of_isChain bounded chainKnown descends
  · have deep := Nat.lt_of_lt_of_le (bounded number numberKnown) enough
    exact ⟨fun found sized =>
        (Chart.Guarded.evaluateWith_eq combine graded numberKnown deep sized).1,
      Chart.evaluateWith_of_bound_le graded bounded numberKnown enough⟩
  · rw [eq_allTrees_of_parse_eq_ok parsed] at member
    obtain ⟨root, rootKnown, member⟩ := filled.exists_of_mem_allTrees member
    refine ⟨filled.no_repeated_label rootKnown member, ?_⟩
    have rootBound := bounded root rootKnown
    have height := Chart.height_le_of_mem_trees graded root rootKnown tree member
    omega

/-- A chain in the chart of two words has at most four cells, as the grammar has
two nonterminals, so counting comes to an end within this depth on every cell.  At
the root it finds the only tree. -/
theorem chart_acyclic_sequences :
    ∃ chart, sequences.chart ["x", "x"] = .ok chart ∧
      WellFounded chart.Below ∧
      (∀ chain : List Nat, (∀ number ∈ chain, number < chart.size) →
        (chain.IsChain fun parent child => chart.Below child parent) →
        chain.Nodup ∧ chain.length ≤ 4) ∧
      (∀ number < chart.size,
        (Chart.Guarded.evaluateWith chart Forest.countParts 4 number
          (Array.replicate chart.size none)).isSome = true) ∧
      ∃ root, chart.root? = some root ∧
        (Chart.Guarded.evaluateWith chart Forest.countParts 4 root
          (Array.replicate chart.size none)).map Prod.fst = some 1 := by
  obtain ⟨chart, chartEq, chains, wellFounded, evaluates, _⟩ :=
    chart_acyclic ofProductions_sequences (produces_sequences 2)
  have ends : ∀ number < chart.size,
      Chart.Guarded.evaluateWith chart Forest.countParts 4 number
          (Array.replicate chart.size none) =
        some (chart.evaluateWith Forest.countParts 4 number
          (Array.replicate chart.size none)) := fun number known =>
    (evaluates Forest.countParts number 4 known (Nat.le_refl 4)).1 _
      Array.size_replicate
  obtain rfl : chart = Chart.fill sequences #["x", "x"] :=
    (Except.ok.inj chartEq).symm
  refine ⟨_, chartEq, wellFounded, chains, fun number known => ?_, 4, ?_, ?_⟩
  · rw [ends number known]
    rfl
  · decide +kernel
  · rw [ends 4 (by decide +kernel)]
    decide +kernel

end Grammar

end Constituency
