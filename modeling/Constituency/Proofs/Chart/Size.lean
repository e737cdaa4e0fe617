import Constituency.Proofs.Chart.Extension
import Constituency.Proofs.Chart.Sorting
import Constituency.Proofs.Chart.Fill
import Mathlib.Data.List.ProdSigma

/-!
# The size of the arena

A chart has at most one cell for each nonterminal on each span of one word or more,
whatever steps it has been filled by.  This bounds the size of its arena, and so the
numbers of its cells.
-/

namespace Constituency

/-- The number of nonterminals times the number of spans of one word or more. -/
def Grammar.cellBound (grammar : Grammar) (words : Nat) : Nat :=
  grammar.symbolCount * words * (words + 1) / 2

namespace Chart

variable {grammar : Grammar} {words : Array String} {chart : Chart}
variable {span : Span} {symbol number : Nat}

/-- A chart for the sentence, indexed, without cells on empty spans. -/
structure Tidy (grammar : Grammar) (words : Array String) (chart : Chart) :
    Prop where
  grammar_eq : chart.grammar = grammar
  words_eq : chart.words = words
  indexed : chart.Indexed
  proper : ∀ {number : Nat} {cell : Cell}, chart.cells[number]? = some cell →
    cell.span.start < cell.span.stop

/-- The spans of one word or more, by the places at which they end. -/
private def properSpans (count : Nat) : List Span :=
  (List.range (count + 1)).flatMap fun stop =>
    (List.range stop).map fun start => ⟨start, stop⟩

private theorem mem_properSpans {count : Nat} :
    span ∈ properSpans count ↔ span.start < span.stop ∧ span.stop ≤ count := by
  obtain ⟨start, stop⟩ := span
  simp only [properSpans, List.mem_flatMap, List.mem_range, List.mem_map,
    Span.mk.injEq]
  constructor
  · rintro ⟨_, within, _, proper, rfl, rfl⟩
    exact ⟨proper, Nat.le_of_lt_succ within⟩
  · rintro ⟨proper, within⟩
    exact ⟨stop, Nat.lt_succ_of_le within, start, proper, rfl, rfl⟩

private theorem two_mul_length_properSpans (count : Nat) :
    2 * (properSpans count).length = count * (count + 1) := by
  induction count with
  | zero => rfl
  | succ count ih =>
      have next : properSpans (count + 1) = properSpans count ++
          (List.range (count + 1)).map fun start => ⟨start, count + 1⟩ := by
        rw [properSpans, List.range_succ, List.flatMap_append,
          List.flatMap_singleton, properSpans]
      calc 2 * (properSpans (count + 1)).length
          = 2 * (properSpans count).length + 2 * (count + 1) := by
            rw [next, List.length_append, List.length_map, List.length_range,
              Nat.mul_add]
        _ = (count + 1) * (count + 1 + 1) := by
            rw [ih]
            ring

namespace Tidy

theorem empty (grammar : Grammar) (words : Array String) :
    Tidy grammar words (Chart.empty grammar words) where
  grammar_eq := rfl
  words_eq := rfl
  indexed := (filledUpTo_empty grammar words).indexed
  proper opened := by simp [Chart.empty] at opened

theorem admits (tidy : Tidy grammar words chart)
    (ordered : span.start ≤ span.stop) (within : span.stop ≤ words.size)
    (known : symbol < grammar.symbolCount) : chart.Admits span symbol := by
  obtain ⟨rfl, rfl, _, _⟩ := tidy
  exact admits_of_within ordered within known

theorem lt_size (tidy : Tidy grammar words chart)
    (admitted : chart.Admits span symbol)
    (found : chart.cellAt? span symbol = some number) : number < chart.size := by
  obtain ⟨cell, opened, _⟩ := tidy.indexed.exists_cell admitted found
  exact lt_size_of_getElem? opened

theorem changeCell (tidy : Tidy grammar words chart) (number : Nat)
    {change : List Derivation → List Derivation}
    (nonempty : ∀ derivations, derivations ≠ [] → change derivations ≠ []) :
    Tidy grammar words (chart.changeCell number change) where
  grammar_eq := tidy.grammar_eq
  words_eq := tidy.words_eq
  indexed := indexed_changeCell tidy.indexed number nonempty
  proper opened := by
    rw [getElem?_changeCell] at opened
    split at opened
    · obtain ⟨cell, earlier, rfl⟩ := Option.map_eq_some_iff.mp opened
      have proper := tidy.proper earlier
      exact proper
    · exact tidy.proper opened

theorem openCell (tidy : Tidy grammar words chart)
    (admitted : chart.Admits span symbol) (proper : span.start < span.stop)
    (missing : chart.cellAt? span symbol = none) (derivation : Derivation) :
    Tidy grammar words (chart.openCell span symbol derivation) where
  grammar_eq := tidy.grammar_eq
  words_eq := tidy.words_eq
  indexed := indexed_openCell tidy.indexed admitted missing derivation
  proper opened := by
    rw [getElem?_openCell] at opened
    split at opened
    · obtain rfl := Option.some.inj opened
      exact proper
    · exact tidy.proper opened

theorem add (tidy : Tidy grammar words chart)
    (admitted : chart.Admits span symbol) (proper : span.start < span.stop)
    (derivation : Derivation) :
    Tidy grammar words (chart.add span symbol derivation) := by
  cases found : chart.cellAt? span symbol with
  | none =>
      rw [add_eq_openCell found]
      exact tidy.openCell admitted proper found derivation
  | some number =>
      rw [add_eq_changeCell found]
      exact tidy.changeCell number (by simp)

theorem sortCell (tidy : Tidy grammar words chart) (span : Span)
    (symbol : Nat) : Tidy grammar words (chart.sortCell span symbol) := by
  cases found : chart.cellAt? span symbol with
  | none => rwa [sortCell_eq_self found]
  | some number =>
      rw [sortCell_eq_changeCell found]
      exact tidy.changeCell number fun _ => sortByProduction_ne_nil

private theorem nodup_places (tidy : Tidy grammar words chart) :
    (chart.cells.toList.map fun cell => (cell.span, cell.symbol)).Nodup := by
  have numberOf : ∀ {number : Nat} (known : number < chart.cells.size),
      chart.cellAt? chart.cells[number].span chart.cells[number].symbol =
        some number := fun known =>
    tidy.indexed.cellAt?_eq (Array.getElem?_eq_getElem known)
  rw [List.Nodup, List.pairwise_map, List.pairwise_iff_getElem]
  intro number later known laterKnown lower same
  simp only [Array.getElem_toList, Prod.mk.injEq] at same
  rw [Array.length_toList] at known laterKnown
  have found := numberOf known
  rw [same.1, same.2, numberOf laterKnown] at found
  exact Nat.ne_of_lt lower (Option.some.inj found).symm

/-- The arena never holds more cells than there are nonterminals times spans of one
word or more. -/
theorem size_le (tidy : Tidy grammar words chart) :
    chart.size ≤ grammar.cellBound words.size := by
  have places : (chart.cells.toList.map fun cell => (cell.span, cell.symbol)) ⊆
      properSpans words.size ×ˢ List.range grammar.symbolCount := by
    intro place member
    obtain ⟨cell, cellMember, rfl⟩ := List.mem_map.mp member
    obtain ⟨number, opened⟩ := Array.mem_iff_getElem?.mp
      (Array.mem_toList_iff.mp cellMember)
    have admitted := tidy.indexed.admits opened
    rw [List.mem_product, mem_properSpans, List.mem_range]
    exact ⟨⟨tidy.proper opened, tidy.words_eq ▸ admitted.stop_le⟩,
      tidy.grammar_eq ▸ admitted.symbol_lt⟩
  have few := tidy.nodup_places.length_le_of_subset places
  rw [List.length_map, Array.length_toList, List.length_product,
    List.length_range] at few
  rw [Grammar.cellBound, Nat.le_div_iff_mul_le Nat.two_pos]
  calc chart.size * 2
      ≤ (properSpans words.size).length * grammar.symbolCount * 2 :=
        Nat.mul_le_mul_right 2 few
    _ = 2 * (properSpans words.size).length * grammar.symbolCount := by ring
    _ = grammar.symbolCount * words.size * (words.size + 1) := by
        rw [two_mul_length_properSpans]
        ring

theorem size_lt (tidy : Tidy grammar words chart)
    (admitted : chart.Admits span symbol) (proper : span.start < span.stop)
    (missing : chart.cellAt? span symbol = none) :
    chart.size < grammar.cellBound words.size := by
  have opened := (tidy.openCell admitted proper missing ⟨0, []⟩).size_le
  rwa [size, Chart.openCell, Array.size_push] at opened

end Tidy

end Chart

end Constituency
