import Constituency.Proofs.Chart.Fill
import Constituency.Proofs.Forest.Evaluate

/-!
# The order of the cells of a filled chart

In a filled chart the children of a derivation lie on shorter spans than its
cell, or on the same span if the derivation is by a unit production.  As unit
productions do not form cycles, no cell lies below itself, whatever the numbers
of the cells are.
-/

namespace Constituency

namespace Chart

variable {chart : Chart} {number : Nat} {cell : Cell}

/-- What a cell weighs by the length of its span and the rank of its
nonterminal. -/
def weight (chart : Chart) (rank : Nat → Nat) (height number : Nat) : Nat :=
  match chart.cells[number]? with
  | none => 0
  | some cell => cell.span.length * height + rank cell.symbol

theorem weight_of_getElem? (opened : chart.cells[number]? = some cell)
    (rank : Nat → Nat) (height : Nat) :
    chart.weight rank height number =
      cell.span.length * height + rank cell.symbol := by
  rw [weight, opened]

namespace Filled

theorem proper (filled : chart.Filled)
    (opened : chart.cells[number]? = some cell) :
    cell.span.start < cell.span.stop := by
  by_contra empty
  have missing := filled.vacant cell.span (by omega) cell.symbol
    (filled.indexed.admits opened)
  rw [filled.indexed.cellAt?_eq opened] at missing
  simp at missing

theorem mem_iff (filled : chart.Filled)
    (opened : chart.cells[number]? = some cell) {derivation : Derivation} :
    derivation ∈ cell.derivations.toList ↔
      chart.Builds cell.span cell.symbol derivation := by
  have admitted := filled.indexed.admits opened
  rw [← (filled.exact cell.span (filled.proper opened) admitted.stop_le).mem_iff
    cell.symbol derivation admitted, derivationsAt_of_cellAt?
    (filled.indexed.cellAt?_eq opened) opened]

theorem pairwise (filled : chart.Filled)
    (opened : chart.cells[number]? = some cell) :
    cell.derivations.toList.Pairwise chart.Earlier := by
  have admitted := filled.indexed.admits opened
  rw [← derivationsAt_of_cellAt? (filled.indexed.cellAt?_eq opened) opened]
  exact (filled.exact cell.span (filled.proper opened)
    admitted.stop_le).pairwise cell.symbol admitted

/-- A cell below another is for a nonterminal on a shorter span, or for the target
of a unit production on the same span. -/
theorem exists_of_below (filled : chart.Filled) {child : Nat}
    (opened : chart.cells[number]? = some cell)
    (below : chart.Below child number) :
    ∃ contents, chart.cells[child]? = some contents ∧
      (contents.span.length < cell.span.length ∨
        contents.span.length = cell.span.length ∧ ∃ production : Nat,
          chart.grammar.numbered[production]? =
            some ⟨cell.symbol, [contents.symbol]⟩) := by
  obtain ⟨cell', opened', derivation, listed, member⟩ := below
  obtain rfl : cell = cell' := Option.some.inj (opened.symm.trans opened')
  have admitted := filled.indexed.admits opened
  have builds := (filled.mem_iff opened).mp listed
  cases builds with
  | lexical => simp at member
  | @syntactic production rhs children numbered nonempty tiled =>
      obtain ⟨start, stop, target, startLe, proper, stopLe, room, targetMem, found⟩ :=
        tiled.exists_of_mem member
      have within := admitted.stop_le
      have targetAdmitted : chart.Admits ⟨start, stop⟩ target :=
        admits_of_within (Nat.le_of_lt proper) (Nat.le_trans stopLe within)
          ((filled.wellFormed.known numbered).2 target targetMem)
      obtain ⟨contents, childOpened, spanEq, symbolEq⟩ :=
        filled.indexed.exists_cell targetAdmitted found
      refine ⟨contents, childOpened, ?_⟩
      rw [spanEq, symbolEq]
      simp only [Span.length] at room ⊢
      rcases rhs with _ | ⟨first, _ | ⟨second, rest⟩⟩
      · exact absurd rfl nonempty
      · obtain rfl := List.mem_singleton.mp targetMem
        by_cases shorter : stop - start < cell.span.stop - cell.span.start
        · exact .inl shorter
        · exact .inr ⟨by omega, production, numbered⟩
      · simp only [List.length_cons] at room
        exact .inl (by omega)

variable {rank : Nat → Nat} {height : Nat}

/-- Cells are graded by the lengths of their spans, and on one span by the ranks of
their nonterminals. -/
theorem graded_weight (filled : chart.Filled)
    (bounded : ∀ symbol < chart.grammar.symbolCount, rank symbol < height)
    (lower : ∀ (index lhs target : Nat),
      chart.grammar.numbered[index]? = some ⟨lhs, [target]⟩ →
      rank target < rank lhs) :
    chart.Graded (chart.weight rank height) := by
  constructor
  · intro child number below
    have ⟨cell, opened, _⟩ := below
    obtain ⟨contents, childOpened, _⟩ := filled.exists_of_below opened below
    exact lt_size_of_getElem? childOpened
  · intro child number below
    have ⟨cell, opened, _⟩ := below
    obtain ⟨contents, childOpened, shorter | ⟨same, production, numbered⟩⟩ :=
      filled.exists_of_below opened below
    · rw [weight_of_getElem? opened, weight_of_getElem? childOpened]
      have rankLt := bounded _ (filled.indexed.admits childOpened).symbol_lt
      have rows := Nat.mul_le_mul_right height (Nat.succ_le_of_lt shorter)
      rw [Nat.succ_mul] at rows
      omega
    · rw [weight_of_getElem? opened, weight_of_getElem? childOpened, same]
      exact Nat.add_lt_add_left (lower production _ _ numbered) _

/-- No cell lies below itself. -/
theorem exists_graded (filled : chart.Filled) :
    ∃ level, chart.Graded level := by
  obtain ⟨rank, height, bounded, lower⟩ := filled.wellFormed.exists_rank
  exact ⟨_, filled.graded_weight bounded lower⟩

/-- There are levels below the number of words times the number of
nonterminals. -/
theorem exists_graded_lt (filled : chart.Filled) :
    ∃ level, chart.Graded level ∧ ∀ number < chart.size,
      level number < chart.words.size * chart.grammar.symbolCount := by
  obtain ⟨rank, _, _, lower⟩ := filled.wellFormed.exists_rank
  obtain ⟨compressed, bounded, preserves⟩ :=
    exists_compressed rank chart.grammar.symbolCount
  have graded := filled.graded_weight bounded fun index lhs target numbered =>
    preserves target ((filled.wellFormed.known numbered).2 target (by simp)) lhs
      (lower index lhs target numbered)
  -- No span is empty, so that what a cell weighs counts one row too many.
  have row_le : ∀ number < chart.size, chart.grammar.symbolCount ≤
      chart.weight compressed chart.grammar.symbolCount number := by
    intro number known
    obtain ⟨cell, opened⟩ := exists_cell_of_lt_size known
    have proper : 1 ≤ cell.span.length := by
      have := filled.proper opened
      rw [Span.length]
      omega
    have rows := Nat.mul_le_mul_right chart.grammar.symbolCount proper
    rw [weight_of_getElem? opened]
    omega
  refine ⟨fun number =>
    chart.weight compressed chart.grammar.symbolCount number -
      chart.grammar.symbolCount, ⟨graded.child_lt_size, ?_⟩, ?_⟩
  · intro child number below
    have lighter := graded.lower below
    have childRow := row_le child (graded.child_lt_size below)
    omega
  · intro number known
    obtain ⟨cell, opened⟩ := exists_cell_of_lt_size known
    have row := row_le number known
    have admitted := filled.indexed.admits opened
    have rankLt := bounded _ admitted.symbol_lt
    have within : cell.span.length ≤ chart.words.size := by
      have := admitted.stop_le
      rw [Span.length]
      omega
    have rows := Nat.mul_le_mul_right chart.grammar.symbolCount within
    dsimp only
    rw [weight_of_getElem? opened] at row ⊢
    omega

end Filled

end Chart

end Constituency
