import Constituency.Proofs.Chart.Sorting

/-!
# The reports of a chart

A chart reports a cell when it is opened, and nothing else.  A derivation that
is added to a cell which is there already is not reported, and neither is the
sorting of derivations, which keeps the cells in their places.  So at any time
the reports are those of the cells, in the order of the arena.
-/

namespace Constituency

namespace Chart

/-- What adding a derivation and sorting the derivations of a cell preserve.
These are all the changes that are made while a chart is filled. -/
structure Preserved (holds : Chart → Prop) : Prop where
  add : ∀ {chart : Chart} (span : Span) (symbol : Nat)
    (derivation : Derivation), holds chart →
    holds (chart.add span symbol derivation)
  sortCell : ∀ {chart : Chart} (span : Span) (symbol : Nat), holds chart →
    holds (chart.sortCell span symbol)

namespace Preserved

variable {holds : Chart → Prop} {chart : Chart}
variable (preserved : Preserved holds)

include preserved

theorem scan (initial : holds chart) (position : Nat) :
    holds (chart.scan position) := by
  rw [Chart.scan]
  split
  · exact initial
  · refine List.foldlRecOn _ _ initial fun chart held production _ => ?_
    split
    · exact held
    · exact preserved.add _ _ _ held

theorem combineProduction (initial : holds chart) (span : Span)
    (production : Nat) : holds (chart.combineProduction span production) := by
  rw [Chart.combineProduction]
  split
  · exact initial
  · split
    · exact List.foldlRecOn _ _ initial fun chart held children _ =>
        preserved.add _ _ _ held
    · exact initial

theorem combine (initial : holds chart) (span : Span) :
    holds (chart.combine span) :=
  List.foldlRecOn _ _ initial fun _ held production _ =>
    preserved.combineProduction held span production

theorem applyUnit (initial : holds chart) (span : Span) (production : Nat) :
    holds (chart.applyUnit span production).1 := by
  rw [Chart.applyUnit]
  split
  · exact initial
  · split
    · exact initial
    · split
      · exact initial
      · exact preserved.add _ _ _ initial

theorem unitPass (initial : holds chart) (span : Span) :
    holds (chart.unitPass span).1 :=
  List.foldlRecOn (motive := fun pass : Chart × Bool => holds pass.1) _ _
    initial fun _ held production _ => preserved.applyUnit held span production

theorem unitPasses (initial : holds chart) (span : Span) (remaining : Nat) :
    holds (Chart.unitPasses span remaining chart) := by
  induction remaining generalizing chart with
  | zero => exact initial
  | succ remaining ih =>
      have held := preserved.unitPass initial span
      rw [Chart.unitPasses]
      dsimp only
      split
      · exact ih held
      · exact held

theorem sortCells (initial : holds chart) (span : Span) :
    holds (chart.sortCells span) :=
  List.foldlRecOn _ _ initial fun _ held symbol _ =>
    preserved.sortCell span symbol held

theorem step (initial : holds chart) (next : FillStep) :
    holds (chart.step next) := by
  cases next with
  | scan position => exact preserved.scan initial position
  | combine span => exact preserved.combine initial span
  | closeUnits span =>
      exact preserved.sortCells (preserved.unitPasses initial span _) span

theorem foldl_step (initial : holds chart) (steps : List FillStep) :
    holds (steps.foldl Chart.step chart) :=
  List.foldlRecOn _ _ initial fun _ held next _ => preserved.step held next

end Preserved

def report (chart : Chart) (cell : Cell) : CellOpened :=
  ⟨cell.span, chart.grammar.symbolName cell.symbol⟩

/-- The reports are those of the cells, in the order of the arena. -/
def Reported (chart : Chart) : Prop :=
  chart.opened.toList = chart.cells.toList.map chart.report

variable {chart : Chart}

/-- A cell is reported in the same way whatever derivations it has. -/
theorem Reported.changeCell (reported : chart.Reported) (number : Nat)
    (change : List Derivation → List Derivation) :
    (chart.changeCell number change).Reported := by
  have kept : (chart.changeCell number change).cells.toList.map chart.report =
      chart.cells.toList.map chart.report :=
    map_changeCell chart number change fun _ => rfl
  exact reported.trans kept.symm

theorem Reported.openCell (reported : chart.Reported) (span : Span)
    (symbol : Nat) (derivation : Derivation) :
    (chart.openCell span symbol derivation).Reported := by
  rw [Reported] at reported
  simp only [Reported, Chart.openCell, Array.toList_push, reported,
    List.map_append, List.map_cons, List.map_nil]
  rfl

theorem preserved_reported : Preserved Reported where
  add {chart} span symbol derivation reported := by
    cases found : chart.cellAt? span symbol with
    | none =>
        rw [add_eq_openCell found]
        exact reported.openCell span symbol derivation
    | some number =>
        rw [add_eq_changeCell found]
        exact reported.changeCell number _
  sortCell {chart} span symbol reported := by
    cases found : chart.cellAt? span symbol with
    | none => rwa [sortCell_eq_self found]
    | some number =>
        rw [sortCell_eq_changeCell found]
        exact reported.changeCell number _

theorem reported_empty (grammar : Grammar) (words : Array String) :
    (empty grammar words).Reported :=
  rfl

/-- After any steps the reports are those of the cells. -/
theorem reported_foldl_step (grammar : Grammar) (words : Array String)
    (steps : List FillStep) :
    (steps.foldl step (empty grammar words)).Reported :=
  preserved_reported.foldl_step (reported_empty grammar words) steps

theorem reported_fill (grammar : Grammar) (words : Array String) :
    (fill grammar words).Reported :=
  reported_foldl_step grammar words _

theorem derivationCount_eq_sum (chart : Chart) :
    chart.derivationCount =
      (chart.cells.toList.map (·.derivations.size)).sum := by
  rw [derivationCount, ← Array.foldl_toList, List.sum_eq_foldl, List.foldl_map]

end Chart

end Constituency
