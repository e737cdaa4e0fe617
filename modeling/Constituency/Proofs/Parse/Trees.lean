import Constituency.Proofs.Forest.Count
import Constituency.Proofs.Forest.Order
import Constituency.Proofs.Parse.Chart
import Mathlib.Data.Set.Card

/-!
# The trees of a sentence

Parsing lists just the derivation trees of a sentence, each of them once and in
the order of derivations, and the forest of the sentence counts them.
-/

namespace Constituency

namespace Chart

variable {chart : Chart}

def rootTrees (chart : Chart) : List BareTree :=
  match chart.root? with
  | none => []
  | some root => chart.bareTrees root

theorem Filled.exists_root_cell (filled : chart.Filled) {root : Nat}
    (found : chart.root? = some root) :
    ∃ cell, chart.cells[root]? = some cell ∧
      cell.span = ⟨0, chart.words.size⟩ ∧
      chart.grammar.symbolName cell.symbol = chart.grammar.start := by
  rw [root?] at found
  split at found
  · simp at found
  · obtain ⟨symbol, known, symbolName, foundAt⟩ :=
      (cellOf?_eq_some_iff filled.wellFormed).mp found
    obtain ⟨cell, opened, spanEq, rfl⟩ := filled.indexed.exists_cell
      ⟨Nat.zero_le _, Nat.le_refl _, known⟩ foundAt
    exact ⟨cell, opened, spanEq, symbolName⟩

/-- The trees of the sentence are just those that derive it from the start
symbol. -/
theorem Filled.mem_rootTrees_iff (filled : chart.Filled) {tree : BareTree} :
    tree ∈ chart.rootTrees ↔
      tree.Derives chart.grammar chart.grammar.start chart.words.toList := by
  have whole := Span.slice_whole chart.words.toList
  rw [Array.length_toList] at whole
  constructor
  · intro member
    rw [rootTrees] at member
    split at member
    · simp at member
    · rename_i root found
      obtain ⟨cell, opened, spanEq, nameEq⟩ := filled.exists_root_cell found
      rw [← whole, ← spanEq, ← nameEq]
      exact (filled.mem_bareTrees_iff_derives opened).mp member
  · intro derives
    obtain ⟨symbol, known, nameEq⟩ := derives.exists_symbol filled.wellFormed
    obtain ⟨conforms, symbols, sentence⟩ := derives
    have nonempty := conforms.words_ne_nil filled.wellFormed
    obtain ⟨number, found, member⟩ := filled.complete conforms known
      (Nat.zero_le _) (Nat.le_refl _) (nameEq ▸ symbols)
      (sentence.trans whole.symm)
    have rootEq : chart.root? = some number := by
      rw [root?, if_neg, ← nameEq]
      · exact (cellOf?_symbolName filled.wellFormed known).trans found
      · rw [Array.isEmpty_iff]
        intro empty
        rw [sentence, empty] at nonempty
        exact nonempty rfl
    rw [rootTrees, rootEq]
    exact member

theorem Filled.pairwise_rootTrees (filled : chart.Filled) :
    chart.rootTrees.Pairwise (BareTree.Precedes chart.grammar) := by
  rw [rootTrees]
  split
  · exact .nil
  · rename_i root found
    obtain ⟨cell, opened, _⟩ := filled.exists_root_cell found
    exact filled.pairwise_bareTrees root (lt_size_of_getElem? opened)

theorem Filled.nodup_rootTrees (filled : chart.Filled) :
    chart.rootTrees.Nodup :=
  filled.pairwise_rootTrees.imp BareTree.Precedes.ne

end Chart

namespace Forest

theorem map_bare_allTrees (forest : Forest) :
    forest.allTrees.map ParseTree.bare = forest.chart.rootTrees := by
  rw [allTrees, Chart.rootTrees]
  cases forest.chart.root? <;> rfl

theorem count_eq_saturate {forest : Forest} (filled : forest.chart.Filled) :
    forest.count = saturate forest.chart.rootTrees.length := by
  rw [count, Chart.rootTrees]
  cases found : forest.chart.root? with
  | none => rfl
  | some root =>
      obtain ⟨cell, opened, _⟩ := filled.exists_root_cell found
      exact filled.evaluate_countParts_eq root
        (Chart.lt_size_of_getElem? opened)

theorem allTrees_of_trees_eq_ok {forest : Forest} {limit : Nat}
    {trees : List ParseTree} (listed : forest.trees limit = .ok trees) :
    trees = forest.allTrees := by
  rw [Forest.trees, expand] at listed
  split at listed
  · rename_i empty
    obtain rfl := Except.ok.inj listed
    rw [isEmpty, Option.isNone_iff_eq_none] at empty
    rw [allTrees, empty]
  · dsimp only at listed
    split at listed
    · simp at listed
    · exact (Except.ok.inj listed).symm

end Forest

namespace Grammar

variable {start : String} {productions : List Production} {grammar : Grammar}
variable {words : List String} {limit : Nat} {trees : List ParseTree}

theorem parse_eq (grammar : Grammar) (words : List String) (limit : Nat) :
    grammar.parse words limit =
      (grammar.forest words).bind fun forest => forest.trees limit := by
  rw [parse, parseLogged]
  cases grammar.forest words <;> rfl

theorem eq_allTrees_of_parse_eq_ok
    (parsed : grammar.parse words limit = .ok trees) :
    trees = Forest.allTrees ⟨Chart.fill grammar words.toArray⟩ := by
  rw [parse_eq, forest, chart] at parsed
  cases unknown : grammar.unknownWord? words with
  | some error => simp [unknown, Except.map, Except.bind] at parsed
  | none =>
      simp only [unknown, Except.map, Except.bind] at parsed
      exact Forest.allTrees_of_trees_eq_ok parsed

theorem map_bare_of_parse_eq_ok
    (parsed : grammar.parse words limit = .ok trees) :
    trees.map ParseTree.bare =
      (Chart.fill grammar words.toArray).rootTrees := by
  rw [eq_allTrees_of_parse_eq_ok parsed, Forest.map_bare_allTrees]

theorem mem_rootTrees_fill_iff (wellFormed : grammar.WellFormed)
    {tree : BareTree} :
    tree ∈ (Chart.fill grammar words.toArray).rootTrees ↔
      tree.Derives grammar grammar.start words := by
  rw [(Chart.filled_fill wellFormed words.toArray).mem_rootTrees_iff,
    Chart.grammar_fill wellFormed, Chart.words_fill wellFormed]

theorem pairwise_rootTrees_fill (wellFormed : grammar.WellFormed)
    (words : List String) :
    (Chart.fill grammar words.toArray).rootTrees.Pairwise
      (BareTree.Precedes grammar) := by
  have ordered :=
    (Chart.filled_fill wellFormed words.toArray).pairwise_rootTrees
  rwa [Chart.grammar_fill wellFormed] at ordered

/-- Parsing is exact: the trees of a sentence are just its derivation trees from
the start symbol, each of them once even if spans are ignored. -/
theorem parse_exact (accepted : ofProductions start productions = .ok grammar)
    (limit : Nat) :
    grammar.parse [] limit = .ok [] ∧
      ∀ (words : List String) (trees : List ParseTree),
        grammar.parse words limit = .ok trees →
        (trees.map ParseTree.bare).Nodup ∧
        ∀ tree : BareTree, tree ∈ trees.map ParseTree.bare ↔
          tree.Derives grammar grammar.start words := by
  have wellFormed := wellFormed_of_ofProductions accepted
  refine ⟨?_, fun words trees parsed => ?_⟩
  · have noRoot : (Chart.fill grammar #[]).root? = none := by
      rw [Chart.root?, Chart.words_fill wellFormed]
      rfl
    have noWord : grammar.unknownWord? [] = none := rfl
    rw [parse_eq, forest, chart, noWord]
    simp [Except.map, Except.bind, Forest.trees, Forest.expand, Forest.isEmpty,
      noRoot]
  · have filled := Chart.filled_fill wellFormed words.toArray
    rw [map_bare_of_parse_eq_ok parsed]
    refine ⟨filled.nodup_rootTrees, fun tree => ?_⟩
    rw [filled.mem_rootTrees_iff, Chart.grammar_fill wellFormed,
      Chart.words_fill wellFormed]

def single (place : Nat) : ParseTree :=
  .branch "S" ⟨place, place + 1⟩
    [.branch "N" ⟨place, place + 1⟩ [.leaf "x" ⟨place, place + 1⟩]]

/-- A sequence of two words has one tree. -/
theorem parse_exact_sequences :
    {tree : BareTree | tree.Derives sequences "S" ["x", "x"]} =
      {.branch "S" [(single 0).bare, (single 1).bare]} := by
  have parsed : sequences.parse ["x", "x"] 1 =
      .ok [.branch "S" ⟨0, 2⟩ [single 0, single 1]] := by
    decide +kernel
  obtain ⟨_, mem_iff⟩ :=
    (parse_exact ofProductions_sequences 1).2 _ _ parsed
  ext tree
  exact (mem_iff tree).symm.trans (by simp)

/-- The trees of a sentence are listed in the order of derivations. -/
theorem parse_pairwise_precedes
    (accepted : ofProductions start productions = .ok grammar)
    (parsed : grammar.parse words limit = .ok trees) :
    (trees.map ParseTree.bare).Pairwise (BareTree.Precedes grammar) := by
  have wellFormed := wellFormed_of_ofProductions accepted
  have filled := Chart.filled_fill wellFormed words.toArray
  have ordered := filled.pairwise_rootTrees
  rw [Chart.grammar_fill wellFormed] at ordered
  rwa [map_bare_of_parse_eq_ok parsed]

/-- The tree whose left part is shorter comes first. -/
theorem parse_pairwise_precedes_sequences :
    ((sequences.parse ["x", "x", "x"] 2).toOption =
      some [.branch "S" ⟨0, 3⟩ [single 0, .branch "S" ⟨1, 3⟩ [single 1, single 2]],
        .branch "S" ⟨0, 3⟩
          [.branch "S" ⟨0, 2⟩ [single 0, single 1], single 2]]) ∧
    BareTree.Precedes sequences
      (.branch "S"
        [(single 0).bare, .branch "S" [(single 1).bare, (single 2).bare]])
      (.branch "S"
        [.branch "S" [(single 0).bare, (single 1).bare],
          (single 2).bare]) := by
  have parsed : sequences.parse ["x", "x", "x"] 2 =
      .ok [.branch "S" ⟨0, 3⟩
          [single 0, .branch "S" ⟨1, 3⟩ [single 1, single 2]],
        .branch "S" ⟨0, 3⟩
          [.branch "S" ⟨0, 2⟩ [single 0, single 1], single 2]] := by
    decide +kernel
  have ordered := parse_pairwise_precedes ofProductions_sequences parsed
  refine ⟨by rw [parsed]; rfl, ?_⟩
  simpa using ordered

/-- Counting is exact up to the greatest number that is told apart. -/
theorem forest_count_eq_min
    (accepted : ofProductions start productions = .ok grammar)
    (known : ∀ word ∈ words, grammar.Produces word) :
    ∃ forest, grammar.forest words = .ok forest ∧
      {tree : BareTree | tree.Derives grammar grammar.start words}.Finite ∧
      forest.count = min
        {tree : BareTree | tree.Derives grammar grammar.start words}.ncard
        (2 ^ 64 - 1) := by
  classical
  have wellFormed := wellFormed_of_ofProductions accepted
  have filled := Chart.filled_fill wellFormed words.toArray
  have grammarEq := Chart.grammar_fill wellFormed words.toArray
  have wordsEq := Chart.words_fill wellFormed words.toArray
  generalize chartEq : Chart.fill grammar words.toArray = chart
    at filled grammarEq wordsEq
  have derivations :
      {tree : BareTree | tree.Derives grammar grammar.start words} =
        chart.rootTrees.toFinset := by
    ext tree
    rw [Set.mem_ofPred_eq, Finset.mem_coe, List.mem_toFinset,
      filled.mem_rootTrees_iff, grammarEq, wordsEq]
  refine ⟨⟨chart⟩, ?_, ?_, ?_⟩
  · rw [forest, chart_eq_ok wellFormed known, chartEq]
    rfl
  · rw [derivations]
    exact Finset.finite_toSet _
  · rw [derivations, Set.ncard_coe_finset,
      List.toFinset_card_of_nodup filled.nodup_rootTrees]
    exact Forest.count_eq_saturate filled

/-- A sequence of four words has five trees. -/
theorem forest_count_eq_min_sequences :
    {tree : BareTree |
      tree.Derives sequences "S" ["x", "x", "x", "x"]}.ncard = 5 := by
  have known : ∀ word ∈ ["x", "x", "x", "x"], sequences.Produces word :=
    produces_sequences 4
  obtain ⟨forest, forestEq, _, counted⟩ :=
    forest_count_eq_min ofProductions_sequences known
  have counts : (sequences.forest ["x", "x", "x", "x"]).toOption.map
      Forest.count = some 5 := by
    decide +kernel
  rw [forestEq] at counts
  have count : forest.count = 5 := Option.some.inj counts
  rw [count] at counted
  change 5 = min {tree : BareTree |
    tree.Derives sequences "S" ["x", "x", "x", "x"]}.ncard (2 ^ 64 - 1) at counted
  omega

end Grammar

end Constituency
