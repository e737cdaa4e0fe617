import Constituency.Proofs.Forest.Guarded
import Constituency.Proofs.Parse.Arena
import Constituency.Proofs.Parse.Budget

/-!
# The bounds of a chart

While a chart is filled, and while its trees are counted and listed, no slot lies
beyond the index, no cell is followed that is not in the arena, and no difference is
negative.  The arena has a bound that depends only on the number of nonterminals and
of words, so that below 2 ^ 32 the numbers of cells can be stored in 32 bits.
-/

namespace Constituency

namespace Chart

namespace Guarded

section Forest

variable {chart : Chart} (filled : chart.Filled)

include filled

theorem root?_eq : root? chart = some chart.root? := by
  rw [root?, Chart.root?]
  split
  · rfl
  · cases found : chart.grammar.symbol? chart.grammar.start with
    | none => rfl
    | some symbol =>
        have known := ((Grammar.symbol?_eq_some_iff
          filled.wellFormed.inverts).mp found).1
        exact lookUp_eq filled.indexed
          ⟨Nat.zero_le _, Nat.le_refl _, known⟩

theorem count_eq : count chart = some (Forest.count ⟨chart⟩) := by
  obtain ⟨level, graded⟩ := filled.exists_graded
  rw [count, Forest.count, root?_eq filled, Option.bind_eq_bind, Option.bind_some]
  cases found : chart.root? with
  | none => rfl
  | some root => exact evaluate_eq _ graded (filled.root_lt_size found)

theorem trees_eq (limit : Nat) :
    trees chart limit = some (Forest.trees ⟨chart⟩ limit) := by
  obtain ⟨level, graded⟩ := filled.exists_graded
  rw [trees, Forest.trees, Forest.expand, Forest.isEmpty, Forest.allTrees,
    root?_eq filled, count_eq filled, Option.bind_eq_bind, Option.bind_some]
  cases found : chart.root? with
  | none => rfl
  | some root =>
      have listed := evaluate_eq (Forest.treesOfParts chart.grammar) graded
        (filled.root_lt_size found)
      have parsed : ¬ (some root).isNone = true := by simp
      dsimp only
      rw [Option.bind_eq_bind, Option.bind_some, listed, if_neg parsed]
      split <;> rfl

end Forest

end Guarded

/-- A chart was filled within all bounds, and its trees are counted and listed within
them. -/
structure WithinBounds (grammar : Grammar) (words : List String)
    (chart : Chart) : Prop where
  index_size : ∀ steps, steps <+: fillSteps words.length →
    (after grammar words steps).index.size =
      (words.length + 1) * (words.length + 1) * grammar.symbolCount
  size_le : ∀ steps, steps <+: fillSteps words.length →
    (after grammar words steps).size ≤ grammar.cellBound words.length
  slot_lt : ∀ {span : Span} {symbol : Nat}, span.start ≤ words.length →
    span.stop ≤ words.length → symbol < grammar.symbolCount →
    chart.slot span symbol <
      (words.length + 1) * (words.length + 1) * grammar.symbolCount
  slot_inj : ∀ {span other : Span} {symbol otherSymbol : Nat},
    span.start ≤ words.length → span.stop ≤ words.length →
    symbol < grammar.symbolCount → other.start ≤ words.length →
    other.stop ≤ words.length → otherSymbol < grammar.symbolCount →
    chart.slot span symbol = chart.slot other otherSymbol →
    other = span ∧ otherSymbol = symbol
  /-- No guard fails if only numbers below the bound are stored. -/
  fill_eq : Guarded.fill
    (fun number =>
      if number < grammar.cellBound words.length then some number else none)
    grammar words.toArray = some chart
  /-- No cell is mistaken for another if numbers are stored in 32 bits. -/
  fill_eq_of_narrow : grammar.cellBound words.length ≤ 2 ^ 32 →
    Guarded.fill (fun number => some (UInt32.ofNat number).toNat) grammar
      words.toArray = some chart
  root?_eq : Guarded.root? chart = some chart.root?
  count_eq : Guarded.count chart = some (Forest.count ⟨chart⟩)
  trees_eq : ∀ limit,
    Guarded.trees chart limit = some (Forest.trees ⟨chart⟩ limit)

theorem withinBounds_fill {grammar : Grammar} (wellFormed : grammar.WellFormed)
    (words : List String) :
    (fill grammar words.toArray).WithinBounds grammar words := by
  have filled := filled_fill wellFormed words.toArray
  have grammarEq := grammar_fill wellFormed words.toArray
  have wordsEq : (fill grammar words.toArray).words.size = words.length := by
    rw [words_fill wellFormed, List.size_toArray]
  have tidy : ∀ steps, steps <+: fillSteps words.length →
      Tidy grammar words.toArray (after grammar words steps) :=
    fun steps reached => tidy_of_isPrefix wellFormed reached
  have admits : ∀ {span : Span} {symbol : Nat}, span.start ≤ words.length →
      span.stop ≤ words.length → symbol < grammar.symbolCount →
      (fill grammar words.toArray).Admits span symbol := by
    intro span symbol startLe stopLe symbolLt
    exact ⟨wordsEq.symm ▸ startLe, wordsEq.symm ▸ stopLe,
      grammarEq.symm ▸ symbolLt⟩
  refine ⟨?_, fun steps reached => (tidy steps reached).size_le, ?_, ?_, ?_, ?_,
    Guarded.root?_eq filled, Guarded.count_eq filled, Guarded.trees_eq filled⟩
  · intro steps reached
    obtain ⟨stepGrammar, stepWords, indexed, _⟩ := tidy steps reached
    rw [indexed.index_size, stepGrammar, stepWords, List.size_toArray]
  · intro span symbol startLe stopLe symbolLt
    have below := Chart.slot_lt (admits startLe stopLe symbolLt)
    rwa [wordsEq, grammarEq] at below
  · intro span other symbol otherSymbol startLe stopLe symbolLt otherStartLe
      otherStopLe otherSymbolLt
    exact Chart.slot_inj (admits startLe stopLe symbolLt)
      (admits otherStartLe otherStopLe otherSymbolLt)
  · refine (Guarded.fill_eq (fun number below => ?_) wellFormed).1
    exact if_pos below
  · intro narrow
    refine (Guarded.fill_eq (fun number below => ?_) wellFormed).1
    exact congrArg some (UInt32.toNat_ofNat_of_lt
      (Nat.lt_of_lt_of_le below narrow))

end Chart

namespace Grammar

/-- The chart of a sentence of known words is filled within its bounds, and its trees
are counted and listed within them. -/
theorem chart_withinBounds {start : String} {productions : List Production}
    {grammar : Grammar}
    (accepted : ofProductions start productions = .ok grammar)
    {words : List String} (known : ∀ word ∈ words, grammar.Produces word) :
    ∃ chart, grammar.chart words = .ok chart ∧
      chart.WithinBounds grammar words := by
  have wellFormed := wellFormed_of_ofProductions accepted
  exact ⟨_, chart_eq_ok wellFormed known, Chart.withinBounds_fill wellFormed words⟩

/-- The chart of a sentence, with the numbers of its cells stored in 32 bits and a
guard at every access. -/
def narrowChart (grammar : Grammar) (words : List String) :
    Option (Except ParseError Chart) :=
  match grammar.unknownWord? words with
  | some error => some (.error error)
  | none =>
      (Chart.Guarded.fill (fun number => some (UInt32.ofNat number).toNat)
        grammar words.toArray).map .ok

/-- The trees of a sentence from this chart. -/
def narrowParse (grammar : Grammar) (words : List String) (limit : Nat) :
    Option (Except ParseError (List ParseTree)) := do
  match ← grammar.narrowChart words with
  | .error error => some (.error error)
  | .ok chart => Chart.Guarded.trees chart limit

section Narrow

variable {start : String} {productions : List Production} {grammar : Grammar}
variable (accepted : ofProductions start productions = .ok grammar)
variable {words : List String}
variable (narrow : grammar.cellBound words.length ≤ 2 ^ 32)

include accepted narrow

/-- Whatever holds of the chart of a sentence holds of the one with 32-bit numbers,
as long as the arena stays within its bound. -/
theorem narrowChart_eq :
    grammar.narrowChart words = some (grammar.chart words) := by
  have wellFormed := wellFormed_of_ofProductions accepted
  have bounds := Chart.withinBounds_fill wellFormed words
  rw [narrowChart, chart]
  cases grammar.unknownWord? words with
  | some error => rfl
  | none => simp only [bounds.fill_eq_of_narrow narrow, Option.map_some]

theorem narrowParse_eq (limit : Nat) :
    grammar.narrowParse words limit = some (grammar.parse words limit) := by
  have wellFormed := wellFormed_of_ofProductions accepted
  have bounds := Chart.withinBounds_fill wellFormed words
  rw [narrowParse, narrowChart_eq accepted narrow, parse, parseLogged, forest,
    chart]
  cases grammar.unknownWord? words with
  | some error => rfl
  | none => exact bounds.trees_eq limit

end Narrow

theorem chart_withinBounds_sequences :
    ∃ chart, sequences.chart ["x", "x"] = .ok chart ∧
      (∀ steps, steps <+: Chart.fillSteps 2 →
        (Chart.after sequences ["x", "x"] steps).size ≤ 6) ∧
      Chart.Guarded.fill (fun number => some (UInt32.ofNat number).toNat)
        sequences #["x", "x"] = some chart ∧
      Chart.Guarded.count chart = some (Forest.count ⟨chart⟩) := by
  obtain ⟨chart, chartEq, bounds⟩ :=
    chart_withinBounds ofProductions_sequences (produces_sequences 2)
  exact ⟨chart, chartEq, bounds.size_le, bounds.fill_eq_of_narrow (by decide),
    bounds.count_eq⟩

end Grammar

end Constituency
