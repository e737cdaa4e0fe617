import Constituency.Proofs.Chart.Arrangement
import Constituency.Proofs.Parse.Chart

/-!
# The arena of a sentence

At every step of the filling of a chart, its index and its arena describe each
other, every cell lists one or more derivations that productions allow, each
once, and the cells are stored by the lengths of their spans, and from left to
right.
-/

namespace Constituency

namespace Chart

def after (grammar : Grammar) (words : List String) (steps : List FillStep) :
    Chart :=
  steps.foldl step (empty grammar words.toArray)

/-- What holds of the arena and of the index of a chart at every step. -/
structure ArenaInvariant (chart : Chart) : Prop where
  /-- The slot of a nonterminal on a span holds the number of just that cell. -/
  slot_iff : ∀ (span : Span) (symbol number : Nat), chart.Admits span symbol →
    (chart.index[chart.slot span symbol]? = some (some number) ↔
      ∃ cell, chart.cells[number]? = some cell ∧ cell.span = span ∧
        cell.symbol = symbol)
  /-- The spans of the cells lie within the sentence, and their nonterminals
  belong to the grammar. -/
  admits : ∀ cell ∈ chart.cells, chart.Admits cell.span cell.symbol
  unique : ∀ (number number' : Nat) (cell cell' : Cell),
    chart.cells[number]? = some cell → chart.cells[number']? = some cell' →
    cell.span = cell'.span → cell.symbol = cell'.symbol → number = number'
  inhabited : ∀ cell ∈ chart.cells, cell.derivations.toList ≠ []
  nodup : ∀ cell ∈ chart.cells, cell.derivations.toList.Nodup
  /-- The production of a derivation has the nonterminal of the cell on the left.
  It is lexical for the one word of the span, or there is a cell for each of the
  nonterminals on its right, and these cells tile the span. -/
  allows : ∀ cell ∈ chart.cells, ∀ derivation ∈ cell.derivations.toList,
    chart.Allows cell.span (chart.grammar.symbolName cell.symbol) derivation
  ordered : chart.cells.toList.Pairwise fun first second =>
    first.span.NotAfter second.span
  child_lt : ∀ (number : Nat) (cell : Cell), chart.cells[number]? = some cell →
    ∀ derivation ∈ cell.derivations.toList, 2 ≤ derivation.children.length →
      ∀ child ∈ derivation.children, child < number

variable {chart : Chart}

theorem WellArranged.arenaInvariant (arranged : chart.WellArranged)
    (wellFormed : chart.grammar.WellFormed) : chart.ArenaInvariant := by
  have indexed := arranged.indexed
  have exists_number : ∀ cell ∈ chart.cells,
      ∃ number : Nat, chart.cells[number]? = some cell := fun cell member =>
    Array.mem_iff_getElem?.mp member
  refine ⟨?_, ?_, ?_, ?_, ?_, ?_, List.pairwise_map.mp arranged.ordered, ?_⟩
  · intro span symbol number admitted
    rw [indexed.getElem?_slot admitted, Option.some.injEq]
    constructor
    · exact indexed.exists_cell admitted
    · rintro ⟨cell, opened, rfl, rfl⟩
      exact indexed.cellAt?_eq opened
  · intro cell member
    obtain ⟨number, opened⟩ := exists_number cell member
    exact indexed.admits opened
  · intro number number' cell cell' opened opened' sameSpan sameSymbol
    have found := indexed.cellAt?_eq opened
    have found' := indexed.cellAt?_eq opened'
    rw [sameSpan, sameSymbol] at found
    exact Option.some.inj (found.symm.trans found')
  · intro cell member
    obtain ⟨number, opened⟩ := exists_number cell member
    exact indexed.inhabited opened
  · intro cell member
    obtain ⟨number, opened⟩ := exists_number cell member
    exact arranged.nodup_cell opened
  · intro cell member derivation listed
    obtain ⟨number, opened⟩ := exists_number cell member
    exact (allows_iff_builds wellFormed (indexed.admits opened).symbol_lt).mpr
      (arranged.builds_cell opened listed)
  · intro number cell opened derivation listed several child isChild
    exact arranged.child_lt wellFormed opened listed several isChild

end Chart

namespace Grammar

/-- The arena invariant holds after every step of the filling of a chart. -/
theorem chart_arenaInvariant {start : String} {productions : List Production}
    {grammar : Grammar}
    (accepted : ofProductions start productions = .ok grammar)
    {words : List String} (known : ∀ word ∈ words, grammar.Produces word) :
    grammar.chart words =
        .ok (Chart.after grammar words (Chart.fillSteps words.length)) ∧
      ∀ steps, steps <+: Chart.fillSteps words.length →
        (Chart.after grammar words steps).grammar = grammar ∧
        (Chart.after grammar words steps).words.toList = words ∧
        (Chart.after grammar words steps).ArenaInvariant := by
  have wellFormed := wellFormed_of_ofProductions accepted
  refine ⟨chart_eq_ok wellFormed known, fun steps reached => ?_⟩
  obtain ⟨arranged, grammarEq, wordsEq⟩ :=
    Chart.wellArranged_of_isPrefix wellFormed words.toArray reached
  refine ⟨grammarEq, ?_, ?_⟩
  · rw [Chart.after, wordsEq]
  · exact arranged.arenaInvariant (grammarEq.symm ▸ wellFormed)

theorem chart_arenaInvariant_sequences :
    sequences.chart ["x", "x"] =
        .ok (Chart.after sequences ["x", "x"] (Chart.fillSteps 2)) ∧
      [.scan 0, .closeUnits ⟨0, 1⟩, .scan 1] <+: Chart.fillSteps 2 ∧
      (Chart.after sequences ["x", "x"]
        [.scan 0, .closeUnits ⟨0, 1⟩, .scan 1]).ArenaInvariant := by
  have reached :
      [.scan 0, .closeUnits ⟨0, 1⟩, .scan 1] <+: Chart.fillSteps 2 := by
    decide
  obtain ⟨filled, invariant⟩ :=
    chart_arenaInvariant ofProductions_sequences (produces_sequences 2)
  exact ⟨filled, reached, (invariant _ reached).2.2⟩

end Grammar

end Constituency
