import Constituency.Proofs.Forest.Chain
import Constituency.Proofs.Forest.Kept
import Constituency.Proofs.Parse.Outcome

/-!
# The limit on trees bounds the work of listing them

Every cell of a filled chart has a tree, and no cell under the root has more trees
than the root.  So if the number of trees of the sentence is within the limit, no
list of trees that is kept on the way to them exceeds it.
-/

namespace Constituency

namespace Chart

variable {chart : Chart} {number inner root : Nat} {cell : Cell}

def derivationTrees (chart : Chart) (cell : Cell) : Set BareTree :=
  {tree | tree.Derives chart.grammar (chart.grammar.symbolName cell.symbol)
    (cell.span.slice chart.words.toList)}

theorem length_trees (chart : Chart) (number : Nat) :
    (chart.trees number).length = (chart.bareTrees number).length :=
  (List.length_map _).symm

namespace Filled

variable (filled : chart.Filled)

include filled

theorem derivationTrees_eq (opened : chart.cells[number]? = some cell) :
    chart.derivationTrees cell = {tree | tree ∈ chart.bareTrees number} := by
  ext tree
  exact (filled.mem_bareTrees_iff_derives opened).symm

theorem ncard_derivationTrees (opened : chart.cells[number]? = some cell) :
    (chart.derivationTrees cell).ncard = (chart.trees number).length := by
  have distinct : (chart.bareTrees number).Nodup :=
    (filled.pairwise_bareTrees number (lt_size_of_getElem? opened)).imp
      BareTree.Precedes.ne
  rw [filled.derivationTrees_eq opened, ncard_setOf_mem distinct, length_trees]

theorem length_trees_pos (known : number < chart.size) :
    1 ≤ (chart.trees number).length := by
  rw [length_trees]
  exact List.length_pos_iff.mpr (filled.bareTrees_ne_nil number known)

theorem length_trees_le_of_under (under : chart.Under inner number) :
    (chart.trees inner).length ≤ (chart.trees number).length := by
  induction under with
  | refl => exact Nat.le_refl _
  | tail _ below ih =>
      have step := filled.length_bareTrees_le_of_below below
      rw [← length_trees, ← length_trees] at step
      exact Nat.le_trans ih step

theorem root_lt_size (found : chart.root? = some root) : root < chart.size := by
  obtain ⟨cell, opened, _⟩ := filled.exists_root_cell found
  exact lt_size_of_getElem? opened

end Filled

end Chart

namespace Forest

variable {forest : Forest} {root limit : Nat} {trees : List ParseTree}

/-- The count is the number of trees of the root, saturated. -/
theorem count_of_root (filled : forest.chart.Filled)
    (found : forest.chart.root? = some root) :
    forest.count = saturate (forest.chart.trees root).length := by
  rw [count_eq_saturate filled, Chart.rootTrees, found, Chart.length_trees]

theorem count_eq_zero_iff (filled : forest.chart.Filled) :
    forest.count = 0 ↔ forest.isEmpty = true := by
  rw [isEmpty, Option.isNone_iff_eq_none]
  cases found : forest.chart.root? with
  | none => simp [count, found]
  | some root =>
      have positive := filled.length_trees_pos (filled.root_lt_size found)
      have greatest : 1 ≤ countLimit := by decide
      rw [count_of_root filled found, saturate]
      simp only [reduceCtorEq, iff_false]
      omega

/-- If the trees are within a limit that can be told apart from greater numbers,
then so are those of the root. -/
theorem length_trees_le_of_trees_eq_ok (filled : forest.chart.Filled)
    (found : forest.chart.root? = some root) (below : limit < countLimit)
    (listed : forest.trees limit = .ok trees) :
    (forest.chart.trees root).length ≤ limit := by
  rw [trees_eq, count_of_root filled found, saturate] at listed
  split at listed
  · simp at listed
  · omega

end Forest

namespace Grammar

variable {start : String} {productions : List Production} {grammar : Grammar}
variable {words : List String}

/-- The limit on the number of trees bounds every list of trees that is kept: each
cell has a tree, no cell under the root has more trees than the root, and the
lists kept while the trees of the root are listed are those of the cells
under it. -/
theorem forest_kept_within_limit
    (accepted : ofProductions start productions = .ok grammar)
    (known : ∀ word ∈ words, grammar.Produces word) :
    ∃ forest, grammar.forest words = .ok forest ∧
      (∀ (number : Nat) cell, forest.chart.cells[number]? = some cell →
        (forest.chart.derivationTrees cell).Finite ∧
        1 ≤ (forest.chart.derivationTrees cell).ncard) ∧
      (∀ root, forest.chart.root? = some root →
        ∃ rootCell, forest.chart.cells[root]? = some rootCell ∧
          ∀ number, forest.chart.Under number root →
            ∃ cell, forest.chart.cells[number]? = some cell ∧
              (forest.chart.derivationTrees cell).ncard ≤
                (forest.chart.derivationTrees rootCell).ncard) ∧
      (forest.count = 0 ↔ forest.isEmpty = true) ∧
      ∀ root, forest.chart.root? = some root → ∀ number listed,
        ((forest.chart.kept (Forest.treesOfParts grammar) root).getD number
            none = some listed ↔
          forest.chart.Under number root ∧
            listed = forest.chart.trees number) ∧
        ∀ limit < 2 ^ 64 - 1, ∀ trees, forest.trees limit = .ok trees →
          (forest.chart.kept (Forest.treesOfParts grammar) root).getD number
            none = some listed →
          listed.length ≤ limit := by
  have wellFormed := wellFormed_of_ofProductions accepted
  have filled := Chart.filled_fill wellFormed words.toArray
  have grammarEq := Chart.grammar_fill wellFormed words.toArray
  obtain ⟨level, graded⟩ := filled.exists_graded
  have forestEq : grammar.forest words =
      .ok ⟨Chart.fill grammar words.toArray⟩ := by
    rw [forest, chart_eq_ok wellFormed known]
    rfl
  generalize Chart.fill grammar words.toArray = chart
    at filled grammarEq graded forestEq
  refine ⟨⟨chart⟩, forestEq, fun number cell opened => ⟨?_, ?_⟩,
    fun root found => ?_, Forest.count_eq_zero_iff filled,
    fun root found number listed => ?_⟩
  · rw [filled.derivationTrees_eq opened]
    exact List.finite_toSet _
  · rw [filled.ncard_derivationTrees opened]
    exact filled.length_trees_pos (Chart.lt_size_of_getElem? opened)
  · have rootKnown := filled.root_lt_size found
    obtain ⟨rootCell, rootOpened⟩ := Chart.exists_cell_of_lt_size rootKnown
    refine ⟨rootCell, rootOpened, fun number under => ?_⟩
    obtain ⟨cell, opened⟩ := Chart.exists_cell_of_lt_size
      (Chart.lt_size_of_under graded rootKnown under)
    refine ⟨cell, opened, ?_⟩
    rw [filled.ncard_derivationTrees opened,
      filled.ncard_derivationTrees rootOpened]
    exact filled.length_trees_le_of_under under
  · have kept_iff : (chart.kept (Forest.treesOfParts grammar) root).getD number
        none = some listed ↔
        chart.Under number root ∧ listed = chart.trees number := by
      rw [Chart.getD_kept_eq_some_iff graded (filled.root_lt_size found),
        Chart.trees, grammarEq]
    refine ⟨kept_iff, fun limit below trees listedTrees isKept => ?_⟩
    obtain ⟨under, rfl⟩ := kept_iff.mp isKept
    exact Nat.le_trans (filled.length_trees_le_of_under under)
      (Forest.length_trees_le_of_trees_eq_ok filled found below listedTrees)

/-- The two trees of a sequence of three words are within a limit of two, and so is
every list of trees kept on the way to them. -/
theorem forest_kept_within_limit_sequences :
    ∃ forest root trees, sequences.forest ["x", "x", "x"] = .ok forest ∧
      forest.chart.root? = some root ∧ forest.trees 2 = .ok trees ∧
      ∀ number listed,
        (forest.chart.kept (Forest.treesOfParts sequences) root).getD number
          none = some listed →
        listed.length ≤ 2 := by
  have known : ∀ word ∈ ["x", "x", "x"], sequences.Produces word :=
    produces_sequences 3
  obtain ⟨forest, forestEq, _, _, _, bounds⟩ :=
    forest_kept_within_limit ofProductions_sequences known
  have rooted : (sequences.forest ["x", "x", "x"]).toOption.any
      (·.chart.root?.isSome) = true := by
    decide +kernel
  have within : (sequences.forest ["x", "x", "x"]).toOption.any
      (·.trees 2 |>.isOk) = true := by
    decide +kernel
  rw [forestEq] at rooted within
  obtain ⟨root, found⟩ := Option.isSome_iff_exists.mp rooted
  obtain ⟨trees, listedTrees⟩ : ∃ trees, forest.trees 2 = .ok trees := by
    cases outcome : forest.trees 2 with
    | error error =>
        simp [Except.toOption, outcome, Except.isOk, Except.toBool] at within
    | ok trees => exact ⟨trees, rfl⟩
  refine ⟨forest, root, trees, forestEq, found, listedTrees, ?_⟩
  intro number listed isKept
  exact (bounds root found number listed).2 2 (by decide) trees listedTrees
    isKept

end Grammar

end Constituency
