import Constituency.Log
import Constituency.Proofs.Chart.Report
import Constituency.Proofs.Parse.Outcome

/-!
# What is logged while a sentence is parsed

Nothing is logged for a sentence with an unknown word.  For any other sentence
there is an entry for each cell of its chart, in the order of the arena, and one
with the size of the finished chart.  If the chart has a root, the number of
trees is logged next to the limit that it is held against, and if it is within
the limit, or if there is no root, a last entry has the number of trees that are
returned.
-/

namespace Constituency

def Parse.log (parse : Parse) : List LogEntry :=
  parse.events.map ParseEvent.entry

def newCellEntry (span : Span) (name : String) : LogEntry :=
  ⟨.trace, "new cell",
    [("start", toString span.start), ("end", toString span.stop),
      ("symbol", name)]⟩

def filledEntry (words cells derivations : Nat) : LogEntry :=
  ⟨.debug, "filled chart",
    [("words", toString words), ("cells", toString cells),
      ("derivations", toString derivations)]⟩

def countedEntry (count limit : Nat) : LogEntry :=
  ⟨.debug, "counted trees",
    [("count", toString count), ("limit", toString limit)]⟩

def parsedEntry (words trees : Nat) : LogEntry :=
  ⟨.debug, "parsed",
    [("words", toString words), ("trees", toString trees)]⟩

namespace Chart

def cellEntries (chart : Chart) : List LogEntry :=
  chart.cells.toList.map fun cell =>
    newCellEntry cell.span (chart.grammar.symbolName cell.symbol)

def derivationTotal (chart : Chart) : Nat :=
  (chart.cells.toList.map (·.derivations.size)).sum

/-- The entries of a finished chart. -/
theorem Reported.map_entry_events {chart : Chart} (reported : chart.Reported) :
    chart.events.map ParseEvent.entry =
      chart.cellEntries ++
        [filledEntry chart.words.size chart.size chart.derivationTotal] := by
  rw [Reported] at reported
  rw [events, reported, derivationCount_eq_sum, List.map_append, List.map_map,
    List.map_map]
  rfl

end Chart

namespace Forest

/-- The trees of a forest are counted just if it has a root. -/
theorem map_entry_expand (forest : Forest) (limit : Nat) :
    (forest.expand limit).events.map ParseEvent.entry =
      if forest.chart.root?.isSome then
        [countedEntry forest.count limit]
      else
        [] := by
  rw [expand, isEmpty]
  cases forest.chart.root? with
  | none => rfl
  | some root => rfl

end Forest

namespace Grammar

variable {start : String} {productions : List Production} {grammar : Grammar}
variable {words : List String} {word : String} {position : Nat}

theorem log_of_firstUnknown
    (accepted : ofProductions start productions = .ok grammar)
    (first : grammar.FirstUnknown words word position) (limit : Nat) :
    (grammar.parseLogged words limit).log = [] := by
  have search := (unknownWord?_eq_some_iff accepted).mpr ⟨_, _, first, rfl⟩
  rw [parseLogged, forest, chart, search]
  rfl

theorem log_of_chart_eq_ok {chart : Chart}
    (filled : grammar.chart words = .ok chart) (limit : Nat) :
    (grammar.parseLogged words limit).log =
      chart.events.map ParseEvent.entry ++
        (Forest.expand ⟨chart⟩ limit).events.map ParseEvent.entry ++
        match grammar.parse words limit with
        | .error _ => []
        | .ok trees => [parsedEntry words.length trees.length] := by
  have outcome : grammar.parse words limit = Forest.trees ⟨chart⟩ limit := by
    rw [parse_eq, forest, filled]
    rfl
  have logged : grammar.parseLogged words limit =
      ⟨chart.events ++ (Forest.expand ⟨chart⟩ limit).events ++
        match Forest.trees ⟨chart⟩ limit with
        | .error _ => []
        | .ok trees => [.parsed words.length trees.length],
      Forest.trees ⟨chart⟩ limit⟩ := by
    rw [parseLogged, forest, filled]
    rfl
  rw [logged, outcome, Parse.log]
  dsimp only
  rw [List.map_append, List.map_append]
  cases Forest.trees ⟨chart⟩ limit with
  | error error => rfl
  | ok trees => rfl

/-- The log of parsing is exact.  Nothing is logged if a word is unknown.
Otherwise the entries are those of the cells of the chart, then one with the
numbers of words, cells and derivations, one with the number of trees just if the
chart has a root, and one with the number of the returned trees just if trees are
returned. -/
theorem parse_log_exact
    (accepted : ofProductions start productions = .ok grammar)
    (words : List String) (limit : Nat) :
    ((∃ word ∈ words, ¬ grammar.Produces word) →
      (grammar.parseLogged words limit).log = []) ∧
    ((∀ word ∈ words, grammar.Produces word) →
      ∃ chart, grammar.chart words = .ok chart ∧
        (∀ cell ∈ chart.cells, grammar.nonterminals[cell.symbol]? =
          some (chart.grammar.symbolName cell.symbol)) ∧
        (grammar.parseLogged words limit).log =
          chart.cellEntries ++
          [filledEntry words.length chart.cells.size chart.derivationTotal] ++
          (if chart.root?.isSome then
            [countedEntry (Forest.count ⟨chart⟩) limit]
          else
            []) ++
          match grammar.parse words limit with
          | .error _ => []
          | .ok trees => [parsedEntry words.length trees.length]) := by
  have wellFormed := wellFormed_of_ofProductions accepted
  constructor
  · rintro ⟨word, member, unknown⟩
    rcases known_or_firstUnknown accepted words with
      known | ⟨word', position, first⟩
    · exact absurd (known word member) unknown
    · exact log_of_firstUnknown accepted first limit
  · intro known
    have filled := chart_eq_ok wellFormed known
    have reported := Chart.reported_fill grammar words.toArray
    have wordsEq := Chart.words_fill wellFormed words.toArray
    have grammarEq := Chart.grammar_fill wellFormed words.toArray
    have indexed := (Chart.filled_fill wellFormed words.toArray).indexed
    refine ⟨_, filled, ?_, ?_⟩
    · intro cell member
      obtain ⟨number, opened⟩ := Array.mem_iff_getElem?.mp member
      have symbolLt := (indexed.admits opened).symbol_lt
      rw [grammarEq] at symbolLt ⊢
      exact getElem?_nonterminals_eq_some_iff.mpr ⟨symbolLt, rfl⟩
    · rw [log_of_chart_eq_ok filled, reported.map_entry_events,
        Forest.map_entry_expand, wordsEq, List.size_toArray]
      rfl

/-- A sequence of three words has two trees, which is more than the limit allows,
so the trees are counted but none are returned.  Each of the six spans has a cell
for the sequence, and each of the words has another one. -/
theorem parse_log_exact_sequences :
    ∃ chart, sequences.chart ["x", "x", "x"] = .ok chart ∧
      chart.cellEntries.take 3 =
        [newCellEntry ⟨0, 1⟩ "N", newCellEntry ⟨0, 1⟩ "S",
          newCellEntry ⟨1, 2⟩ "N"] ∧
      (sequences.parseLogged ["x", "x", "x"] 1).log =
        chart.cellEntries ++ [filledEntry 3 9 10, countedEntry 2 1] := by
  obtain ⟨chart, filled, _, logged⟩ :=
    (parse_log_exact ofProductions_sequences ["x", "x", "x"] 1).2
      (produces_sequences 3)
  have exceeded : sequences.parse ["x", "x", "x"] 1 =
      .error (.tooManyTrees 1) := by
    decide +kernel
  have computed : (sequences.chart ["x", "x", "x"]).map (fun chart =>
      (chart.cellEntries.take 3, chart.cells.size, chart.derivationTotal,
        chart.root?.isSome, Forest.count ⟨chart⟩)) =
      .ok ([newCellEntry ⟨0, 1⟩ "N", newCellEntry ⟨0, 1⟩ "S",
        newCellEntry ⟨1, 2⟩ "N"], 9, 10, true, 2) := by
    decide +kernel
  rw [filled, Except.map, Except.ok.injEq] at computed
  simp only [Prod.mk.injEq] at computed
  obtain ⟨first, size, total, hasRoot, count⟩ := computed
  rw [exceeded, size, total, hasRoot, count] at logged
  refine ⟨chart, filled, first, logged.trans ?_⟩
  simp

end Grammar

end Constituency
