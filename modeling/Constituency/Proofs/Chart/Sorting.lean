import Constituency.Chart.Fill
import Constituency.Proofs.Chart.Extension

/-!
# Sorting the derivations of a span

The derivations of a cell are sorted by their productions, and those of one
production stay in their order.  Sorting opens no cell and keeps the derivations
of each.
-/

namespace Constituency

namespace Chart

variable {related : Derivation → Derivation → Prop}
variable {derivation : Derivation} {derivations : List Derivation}

/-- The order by productions, and for one production by another relation. -/
def ByProduction (related : Derivation → Derivation → Prop)
    (first second : Derivation) : Prop :=
  first.production < second.production ∨
    first.production = second.production ∧ related first second

theorem perm_insertByProduction (derivation : Derivation)
    (derivations : List Derivation) :
    (insertByProduction derivation derivations).Perm
      (derivation :: derivations) := by
  induction derivations with
  | nil => exact .refl _
  | cons next rest ih =>
      rw [insertByProduction]
      split
      · exact .refl _
      · exact (ih.cons next).trans (.swap ..)

theorem perm_sortByProduction (derivations : List Derivation) :
    (sortByProduction derivations).Perm derivations := by
  induction derivations with
  | nil => exact .refl _
  | cons derivation rest ih =>
      exact (perm_insertByProduction ..).trans (ih.cons derivation)

@[simp]
theorem mem_sortByProduction :
    derivation ∈ sortByProduction derivations ↔ derivation ∈ derivations :=
  (perm_sortByProduction derivations).mem_iff

theorem sortByProduction_ne_nil (nonempty : derivations ≠ []) :
    sortByProduction derivations ≠ [] := by
  intro empty
  have perm := perm_sortByProduction derivations
  rw [empty] at perm
  exact nonempty perm.nil_eq.symm

theorem pairwise_insertByProduction
    (sorted : derivations.Pairwise (ByProduction related))
    (before : ∀ next ∈ derivations,
      derivation.production = next.production → related derivation next) :
    (insertByProduction derivation derivations).Pairwise
      (ByProduction related) := by
  induction derivations with
  | nil => exact List.pairwise_singleton ..
  | cons next rest ih =>
      obtain ⟨nextBefore, restSorted⟩ := List.pairwise_cons.mp sorted
      rw [insertByProduction]
      split
      · rename_i notAfter
        refine List.pairwise_cons.mpr ⟨fun other member => ?_, sorted⟩
        have lowest : next.production ≤ other.production := by
          rcases List.mem_cons.mp member with rfl | member
          · exact Nat.le_refl _
          · rcases nextBefore other member with lower | ⟨same, _⟩
            · exact Nat.le_of_lt lower
            · exact Nat.le_of_eq same
        rcases Nat.lt_or_eq_of_le (Nat.le_trans notAfter lowest) with
          lower | same
        · exact .inl lower
        · exact .inr ⟨same, before other member same⟩
      · rename_i after
        refine List.pairwise_cons.mpr ⟨fun other member => ?_,
          ih restSorted fun other member => before other (by simp [member])⟩
        rcases List.mem_cons.mp
          ((perm_insertByProduction ..).mem_iff.mp member) with rfl | member
        · exact .inl (by omega)
        · exact nextBefore other member

/-- Sorting orders derivations by their productions, and those of one production
as they are given. -/
theorem pairwise_sortByProduction
    (given : derivations.Pairwise fun first second =>
      first.production = second.production → related first second) :
    (sortByProduction derivations).Pairwise (ByProduction related) := by
  induction derivations with
  | nil => exact .nil
  | cons derivation rest ih =>
      obtain ⟨before, restGiven⟩ := List.pairwise_cons.mp given
      exact pairwise_insertByProduction (ih restGiven) fun next member same =>
        before next (mem_sortByProduction.mp member) same

theorem pairwise_le_sortByProduction (derivations : List Derivation) :
    (sortByProduction derivations).Pairwise fun first second =>
      first.production ≤ second.production := by
  have unrelated : derivations.Pairwise fun first second =>
      first.production = second.production → True :=
    List.pairwise_of_forall fun _ _ _ => trivial
  refine (pairwise_sortByProduction unrelated).imp ?_
  rintro first second (lower | ⟨same, _⟩)
  · exact Nat.le_of_lt lower
  · exact Nat.le_of_eq same

theorem filter_insertByProduction (derivation : Derivation)
    (derivations : List Derivation) (production : Nat) :
    (insertByProduction derivation derivations).filter
        (·.production = production) =
      (derivation :: derivations).filter (·.production = production) := by
  induction derivations with
  | nil => rfl
  | cons next rest ih =>
      rw [insertByProduction]
      split
      · rfl
      · rename_i after
        rw [List.filter_cons, ih]
        -- Only derivations of different productions have changed places.
        by_cases nextKept : next.production = production
        · have dropped : derivation.production ≠ production := by omega
          simp [nextKept, dropped]
        · simp [List.filter_cons, nextKept]

theorem filter_sortByProduction (derivations : List Derivation)
    (production : Nat) :
    (sortByProduction derivations).filter (·.production = production) =
      derivations.filter (·.production = production) := by
  induction derivations with
  | nil => rfl
  | cons derivation rest ih =>
      change (insertByProduction derivation (sortByProduction rest)).filter _ = _
      rw [filter_insertByProduction, List.filter_cons, ih, List.filter_cons]

theorem sortByProduction_eq_self
    (sorted : derivations.Pairwise fun first second =>
      first.production ≤ second.production) :
    sortByProduction derivations = derivations := by
  induction derivations with
  | nil => rfl
  | cons derivation rest ih =>
      obtain ⟨before, restSorted⟩ := List.pairwise_cons.mp sorted
      change insertByProduction derivation (sortByProduction rest) = _
      rw [ih restSorted]
      cases rest with
      | nil => rfl
      | cons next rest =>
          rw [insertByProduction, if_pos (before next (by simp))]

variable {chart : Chart} {span other : Span} {symbol otherSymbol : Nat}

theorem sortCell_eq_changeCell {number : Nat}
    (found : chart.cellAt? span symbol = some number) :
    chart.sortCell span symbol =
      chart.changeCell number sortByProduction := by
  simp only [sortCell, found, changeCell, Cell.changeDerivations]

theorem sortCell_eq_self (missing : chart.cellAt? span symbol = none) :
    chart.sortCell span symbol = chart := by
  simp only [sortCell, missing]

theorem extends_sortCell (indexed : chart.Indexed)
    (admitted : chart.Admits span symbol) :
    chart.Extends (chart.sortCell span symbol) span := by
  cases found : chart.cellAt? span symbol with
  | none =>
      rw [sortCell_eq_self found]
      exact .refl indexed span
  | some number =>
      rw [sortCell_eq_changeCell found]
      exact extends_changeCell indexed (fun _ => sortByProduction_ne_nil)
        admitted found

theorem cellAt?_sortCell (chart : Chart) (span other : Span)
    (symbol otherSymbol : Nat) :
    (chart.sortCell span symbol).cellAt? other otherSymbol =
      chart.cellAt? other otherSymbol := by
  unfold sortCell
  split <;> rfl

theorem derivationsAt_sortCell (indexed : chart.Indexed)
    (admitted : chart.Admits span symbol)
    (otherAdmitted : chart.Admits span otherSymbol) :
    (chart.sortCell span symbol).derivationsAt span otherSymbol =
      if otherSymbol = symbol then
        sortByProduction (chart.derivationsAt span symbol)
      else
        chart.derivationsAt span otherSymbol := by
  cases found : chart.cellAt? span symbol with
  | none =>
      rw [sortCell_eq_self found, derivationsAt_of_cellAt?_eq_none found]
      split
      · rename_i same
        rw [same, derivationsAt_of_cellAt?_eq_none found]
        rfl
      · rfl
  | some number =>
      rw [sortCell_eq_changeCell found,
        derivationsAt_changeCell indexed admitted found otherAdmitted]
      simp

private theorem sortCells_run (indexed : chart.Indexed) (symbols : List Nat)
    (admitted : ∀ symbol ∈ symbols, chart.Admits span symbol)
    (distinct : symbols.Nodup) :
    let sorted := symbols.foldl
      (fun chart symbol => chart.sortCell span symbol) chart
    chart.Extends sorted span ∧
      (∀ other otherSymbol,
        sorted.cellAt? other otherSymbol = chart.cellAt? other otherSymbol) ∧
      ∀ symbol, chart.Admits span symbol →
        sorted.derivationsAt span symbol =
          if symbol ∈ symbols then
            sortByProduction (chart.derivationsAt span symbol)
          else
            chart.derivationsAt span symbol := by
  induction symbols generalizing chart with
  | nil => exact ⟨.refl indexed span, fun _ _ => rfl, fun _ _ => by simp⟩
  | cons symbol rest ih =>
      obtain ⟨notInRest, restDistinct⟩ := List.nodup_cons.mp distinct
      have symbolAdmitted := admitted symbol (by simp)
      have first := extends_sortCell indexed symbolAdmitted
      obtain ⟨extended, cells, derivations⟩ := ih first.indexed
        (fun other member =>
          first.admits_iff.mpr (admitted other (by simp [member])))
        restDistinct
      refine ⟨first.trans extended, fun other otherSymbol => ?_,
        fun other otherAdmitted => ?_⟩
      · rw [List.foldl_cons, cells, cellAt?_sortCell]
      · rw [List.foldl_cons, derivations other (first.admits_iff.mpr
          otherAdmitted), derivationsAt_sortCell indexed symbolAdmitted
          otherAdmitted]
        by_cases same : other = symbol
        · subst other
          simp [notInRest]
        · simp [same]

theorem sortCells_eq_self
    (sorted : ∀ symbol < chart.grammar.symbolCount,
      (chart.derivationsAt span symbol).Pairwise fun first second =>
        first.production ≤ second.production) :
    chart.sortCells span = chart := by
  refine List.foldlRecOn (motive := fun result => result = chart) _ _ rfl ?_
  intro result same symbol member
  rw [same]
  cases found : chart.cellAt? span symbol with
  | none => exact sortCell_eq_self found
  | some number =>
      rw [sortCell_eq_changeCell found]
      refine changeCell_eq_self fun cell opened => sortByProduction_eq_self ?_
      rw [← derivationsAt_of_cellAt? found opened]
      exact sorted symbol (List.mem_range.mp member)

section Cells

variable (indexed : chart.Indexed) (ordered : span.start ≤ span.stop)
variable (within : span.stop ≤ chart.words.size)

include ordered within in
private theorem admits_of_mem_range :
    ∀ symbol ∈ List.range chart.grammar.symbolCount,
      chart.Admits span symbol :=
  fun _ member =>
    admits_of_within ordered within (List.mem_range.mp member)

include indexed ordered within

theorem extends_sortCells : chart.Extends (chart.sortCells span) span :=
  (sortCells_run indexed _ (admits_of_mem_range ordered within)
    List.nodup_range).1

theorem cellAt?_sortCells (other : Span) (symbol : Nat) :
    (chart.sortCells span).cellAt? other symbol = chart.cellAt? other symbol :=
  (sortCells_run indexed _ (admits_of_mem_range ordered within)
    List.nodup_range).2.1 other symbol

theorem derivationsAt_sortCells (admitted : chart.Admits span symbol) :
    (chart.sortCells span).derivationsAt span symbol =
      sortByProduction (chart.derivationsAt span symbol) := by
  have sorted := (sortCells_run indexed _ (admits_of_mem_range ordered within)
    List.nodup_range).2.2 symbol admitted
  rw [sortCells, sorted, if_pos (List.mem_range.mpr admitted.symbol_lt)]

end Cells

end Chart

end Constituency
