import Constituency.Parse
import Constituency.Proofs.Forest.Trees
import Constituency.Proofs.Grammar.Build

/-!
# The chart of a sentence

The chart of a sentence of known words holds, for every span and nonterminal,
just the ways in which productions of the grammar let the nonterminal derive the
words of the span, in order.
-/

namespace Constituency

namespace Grammar

/-- Some lexical production of the grammar produces the word. -/
def Produces (grammar : Grammar) (word : String) : Prop :=
  ∃ lhs, ⟨lhs, [.terminal word]⟩ ∈ grammar.productions

theorem chart_eq_ok {grammar : Grammar} (wellFormed : grammar.WellFormed)
    {words : List String} (known : ∀ word ∈ words, grammar.Produces word) :
    grammar.chart words = .ok (Chart.fill grammar words.toArray) := by
  have noneUnknown : grammar.unknownWord? words = none := by
    rw [unknownWord?, Option.map_eq_none_iff, List.find?_eq_none]
    rintro ⟨word, position⟩ member
    obtain ⟨lhs, listed⟩ := known word (List.fst_mem_of_mem_zipIdx member)
    simp [wellFormed.knowsWord_of_mem listed]
  rw [chart, noneUnknown]

end Grammar

theorem BareTree.Derives.exists_symbol {grammar : Grammar} {name : String}
    {sentence : List String} {tree : BareTree}
    (derives : tree.Derives grammar name sentence)
    (wellFormed : grammar.WellFormed) :
    ∃ symbol < grammar.symbolCount, grammar.symbolName symbol = name := by
  obtain ⟨conforms, symbols, _⟩ := derives
  cases conforms with
  | leaf => simp [BareTree.symbol] at symbols
  | @branch label children listed =>
      obtain rfl := Symbol.nonterminal.inj symbols
      obtain ⟨index, found⟩ := Array.mem_iff_getElem?.mp listed
      obtain ⟨lhs, known, ⟨_, _, _, shape⟩ | ⟨_, _, _, shape⟩⟩ :=
        wellFormed.production_cases found
      · exact ⟨lhs, known, (congrArg Production.lhs shape).symm⟩
      · exact ⟨lhs, known, (congrArg Production.lhs shape).symm⟩

namespace Chart

/-- The cell of a nonterminal, given by its name, on a span. -/
def cellOf? (chart : Chart) (span : Span) (name : String) : Option Nat :=
  (chart.grammar.symbol? name).bind (chart.cellAt? span)

/-- A way for a nonterminal to derive the words of a span, in terms of the
productions as they are declared. -/
inductive Allows (chart : Chart) (span : Span) (name : String) :
    Derivation → Prop
  /-- The span is a single word, and a lexical production has this word on the
  right. -/
  | lexical {production : Nat} {word : String}
      (declared : chart.grammar.productions[production]? =
        some ⟨name, [.terminal word]⟩)
      (placed : chart.words[span.start]? = some word)
      (single : span.stop = span.start + 1) :
      Allows chart span name ⟨production, []⟩
  /-- The cells of the nonterminals on the right of a production tile the
  span. -/
  | syntactic {production : Nat} {names : List String} {children : List Nat}
      (declared : chart.grammar.productions[production]? =
        some ⟨name, names.map .nonterminal⟩)
      (nonempty : names ≠ [])
      (tiled : Tiled chart.cellOf? names span children) :
      Allows chart span name ⟨production, children⟩

variable {chart : Chart} {span : Span} {symbol : Nat} {name : String}
variable {derivation : Derivation}

theorem cellOf?_symbolName (wellFormed : chart.grammar.WellFormed)
    (known : symbol < chart.grammar.symbolCount) :
    chart.cellOf? span (chart.grammar.symbolName symbol) =
      chart.cellAt? span symbol := by
  rw [cellOf?, (Grammar.symbol?_eq_some_iff wellFormed.inverts).mpr
    ⟨known, rfl⟩, Option.bind_some]

theorem cellOf?_eq_some_iff (wellFormed : chart.grammar.WellFormed)
    {number : Nat} :
    chart.cellOf? span name = some number ↔
      ∃ symbol < chart.grammar.symbolCount,
        chart.grammar.symbolName symbol = name ∧
        chart.cellAt? span symbol = some number := by
  rw [cellOf?, Option.bind_eq_some_iff]
  simp only [Grammar.symbol?_eq_some_iff wellFormed.inverts,
    and_assoc]

theorem tiled_cellOf?_iff (wellFormed : chart.grammar.WellFormed)
    {rhs children : List Nat}
    (known : ∀ symbol ∈ rhs, symbol < chart.grammar.symbolCount) :
    Tiled chart.cellOf? (rhs.map chart.grammar.symbolName) span children ↔
      Tiled chart.cellAt? rhs span children := by
  induction rhs generalizing span children with
  | nil =>
      constructor <;> rintro ⟨place⟩ <;> exact .nil place
  | cons symbol rest ih =>
      have symbolKnown := known symbol (by simp)
      have restKnown : ∀ symbol ∈ rest, symbol < chart.grammar.symbolCount :=
        fun symbol member => known symbol (by simp [member])
      constructor
      · rintro ⟨⟩
        rename_i proper found below
        rw [cellOf?_symbolName wellFormed symbolKnown] at found
        exact .cons proper found ((ih restKnown).mp below)
      · rintro ⟨⟩
        rename_i proper found below
        rw [← cellOf?_symbolName wellFormed symbolKnown] at found
        exact .cons proper found ((ih restKnown).mpr below)

/-- What productions allow is what can be built by their numbered forms. -/
theorem allows_iff_builds (wellFormed : chart.grammar.WellFormed)
    (known : symbol < chart.grammar.symbolCount) :
    chart.Allows span (chart.grammar.symbolName symbol) derivation ↔
      chart.Builds span symbol derivation := by
  constructor
  · rintro (⟨declared, placed, single⟩ | ⟨declared, nonempty, tiled⟩)
    · obtain ⟨lhs, lhsKnown, ⟨word, numbered, listed, shape⟩ |
        ⟨rhs, _, _, shape⟩⟩ := wellFormed.production_cases declared
      · simp only [Production.mk.injEq, List.cons.injEq, Symbol.terminal.injEq,
          and_true] at shape
        obtain ⟨names, rfl⟩ := shape
        obtain rfl := Grammar.symbolName_injective wellFormed.inverts
          known lhsKnown names
        exact .lexical numbered listed placed single
      · rcases rhs with _ | ⟨first, rest⟩ <;> simp at shape
    · rename_i names children
      obtain ⟨lhs, lhsKnown, ⟨word, _, _, shape⟩ |
        ⟨rhs, numbered, rhsNonempty, shape⟩⟩ :=
        wellFormed.production_cases declared
      · rcases names with _ | ⟨first, rest⟩ <;> simp at shape
      · simp only [Production.mk.injEq] at shape
        obtain rfl := Grammar.symbolName_injective wellFormed.inverts
          known lhsKnown shape.1
        have namesEq : names = rhs.map chart.grammar.symbolName := by
          have injective : Function.Injective Symbol.nonterminal :=
            fun _ _ same => Symbol.nonterminal.inj same
          apply injective.list_map
          rw [shape.2, List.map_map]
          rfl
        subst names
        exact .syntactic numbered rhsNonempty ((tiled_cellOf?_iff wellFormed
          (wellFormed.known numbered).2).mp tiled)
  · intro builds
    cases builds with
    | lexical numbered listed placed single =>
        exact .lexical (wellFormed.production_of_lexical numbered listed) placed
          single
    | @syntactic production rhs children numbered nonempty tiled =>
        refine .syntactic ?_ (by simpa using nonempty) ((tiled_cellOf?_iff
          wellFormed (wellFormed.known numbered).2).mpr tiled)
        rw [wellFormed.production_of_syntactic nonempty numbered, List.map_map]
        rfl

/-- The derivations are just those that productions allow, each listed once, by
increasing productions, and for one production by increasing split points. -/
structure Lists (chart : Chart) (span : Span) (name : String)
    (derivations : List Derivation) : Prop where
  mem_iff : ∀ derivation,
    derivation ∈ derivations ↔ chart.Allows span name derivation
  nodup : derivations.Nodup
  pairwise : derivations.Pairwise chart.Earlier

theorem Filled.lists (filled : chart.Filled) {number : Nat} {cell : Cell}
    (opened : chart.cells[number]? = some cell) :
    chart.Lists cell.span (chart.grammar.symbolName cell.symbol)
      cell.derivations.toList := by
  have known := (filled.indexed.admits opened).symbol_lt
  refine ⟨fun derivation => ?_, ?_, filled.pairwise opened⟩
  · rw [allows_iff_builds filled.wellFormed known, filled.mem_iff opened]
  · exact (filled.pairwise opened).imp Earlier.ne

/-- A nonterminal, given by its name, has a cell on a span just if it derives its
words. -/
theorem Filled.isSome_cellOf?_iff (filled : chart.Filled)
    (proper : span.start < span.stop) (within : span.stop ≤ chart.words.size) :
    (chart.cellOf? span name).isSome ↔
      ∃ tree : BareTree,
        tree.Derives chart.grammar name (span.slice chart.words.toList) := by
  have ordered := Nat.le_of_lt proper
  have isSome_iff : ∀ symbol < chart.grammar.symbolCount, _ :=
    fun symbol known => filled.isSome_cellAt?_iff ordered
      (admits_of_within ordered within known)
  constructor
  · intro some
    obtain ⟨number, found⟩ := Option.isSome_iff_exists.mp some
    obtain ⟨symbol, known, rfl, foundAt⟩ :=
      (cellOf?_eq_some_iff filled.wellFormed).mp found
    exact (isSome_iff symbol known).mp (Option.isSome_of_eq_some foundAt)
  · rintro ⟨tree, derives⟩
    obtain ⟨symbol, known, rfl⟩ := derives.exists_symbol filled.wellFormed
    rw [cellOf?_symbolName filled.wellFormed known, isSome_iff symbol known]
    exact ⟨tree, derives⟩

end Chart

namespace Grammar

/-- The chart of a sentence of known words is exact: a nonterminal has a cell on
a span just if it derives its words, and the cell lists every derivation that
productions allow there. -/
theorem chart_exact {start : String} {productions : List Production}
    {grammar : Grammar}
    (accepted : ofProductions start productions = .ok grammar)
    {words : List String} (known : ∀ word ∈ words, grammar.Produces word) :
    ∃ chart, grammar.chart words = .ok chart ∧ chart.grammar = grammar ∧
      chart.words.toList = words ∧
      ∀ (span : Span) (name : String), span.start < span.stop →
        span.stop ≤ words.length →
        ((chart.cellOf? span name).isSome ↔
          ∃ tree : BareTree, tree.Derives grammar name (span.slice words)) ∧
        ∀ number, chart.cellOf? span name = some number →
          ∃ cell, chart.cells[number]? = some cell ∧ cell.span = span ∧
            grammar.symbolName cell.symbol = name ∧
            chart.Lists span name cell.derivations.toList := by
  have wellFormed := wellFormed_of_ofProductions accepted
  have filled := Chart.filled_fill wellFormed words.toArray
  have grammarEq := Chart.grammar_fill wellFormed words.toArray
  have wordsEq := Chart.words_fill wellFormed words.toArray
  refine ⟨_, chart_eq_ok wellFormed known, grammarEq, by simp [wordsEq], ?_⟩
  generalize Chart.fill grammar words.toArray = chart at filled grammarEq wordsEq
  subst grammarEq
  intro span name proper within
  have within : span.stop ≤ chart.words.size := by simpa [wordsEq] using within
  refine ⟨?_, fun number found => ?_⟩
  · rw [filled.isSome_cellOf?_iff proper within, wordsEq]
  · obtain ⟨symbol, symbolKnown, rfl, foundAt⟩ :=
      (Chart.cellOf?_eq_some_iff filled.wellFormed).mp found
    obtain ⟨cell, opened, rfl, rfl⟩ := filled.indexed.exists_cell
      ⟨by omega, within, symbolKnown⟩ foundAt
    exact ⟨cell, opened, rfl, rfl, filled.lists opened⟩

/-- A grammar of sequences of one word, with a unit production. -/
def sequences : Grammar where
  start := "S"
  productions :=
    #[⟨"S", [.nonterminal "S", .nonterminal "S"]⟩, ⟨"S", [.nonterminal "N"]⟩,
      ⟨"N", [.terminal "x"]⟩]
  nonterminals := #["S", "N"]
  ids := [("N", 1), ("S", 0)]
  byLhs := #[[0, 1], [2]]
  lexicon := [("x", [2])]
  numbered := #[⟨0, [0, 0]⟩, ⟨0, [1]⟩, ⟨1, []⟩]

theorem ofProductions_sequences :
    ofProductions "S" sequences.productions.toList = .ok sequences := by
  decide +kernel

theorem produces_sequences (count : Nat) :
    ∀ word ∈ List.replicate count "x", sequences.Produces word := by
  intro word member
  obtain rfl := List.eq_of_mem_replicate member
  exact ⟨"N", by simp [sequences]⟩

theorem chart_exact_sequences :
    ∃ chart, sequences.chart ["x", "x"] = .ok chart ∧
      ((chart.cellOf? ⟨0, 2⟩ "S").isSome ↔
        ∃ tree : BareTree, tree.Derives sequences "S" ["x", "x"]) ∧
      ∀ number, chart.cellOf? ⟨0, 2⟩ "S" = some number →
        ∃ cell, chart.cells[number]? = some cell ∧
          chart.Lists ⟨0, 2⟩ "S" cell.derivations.toList := by
  obtain ⟨chart, chartEq, _, _, exact⟩ :=
    chart_exact ofProductions_sequences (produces_sequences 2)
  obtain ⟨isSome_iff, lists⟩ := exact ⟨0, 2⟩ "S" (by decide) (by decide)
  refine ⟨chart, chartEq, isSome_iff, fun number found => ?_⟩
  obtain ⟨cell, opened, _, _, listed⟩ := lists number found
  exact ⟨cell, opened, listed⟩

end Grammar

end Constituency
