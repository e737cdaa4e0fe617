import Constituency.Proofs.Chart.Fill
import Constituency.Proofs.Grammar.Build

/-!
# The least fixpoint of the unit productions

Closing a span under unit productions opens just the cells of the nonterminals
from which unit productions lead to a cell that was there before.  Every unit
derivation that its child allows is then listed once, all other derivations stay,
and other spans are not touched.  A span that is closed stays as it is when it is
closed again.

Nothing is asked of the unit productions: they may form cycles.
-/

namespace Constituency

namespace Grammar

theorem SymbolsKnown.of_reflTransGen {grammar : Grammar} {symbol target : Nat}
    (known : grammar.SymbolsKnown)
    (reaches : Relation.ReflTransGen grammar.UnitArrow symbol target)
    (symbolKnown : symbol < grammar.symbolCount) :
    target < grammar.symbolCount := by
  induction reaches with
  | refl => exact symbolKnown
  | tail _ arrow =>
      obtain ⟨production, found⟩ := arrow
      exact (known.of_getElem? found).2 _ (by simp)

end Grammar

namespace Chart

variable {chart later : Chart} {span : Span} {symbol : Nat}

/-- What the closure of a span under unit productions is. -/
structure UnitClosure (chart closed : Chart) (span : Span) : Prop where
  grammar_eq : closed.grammar = chart.grammar
  words_eq : closed.words = chart.words
  indexed : closed.Indexed
  /-- Unit productions lead from just the nonterminals that have a cell to those that
  had one. -/
  isSome_iff : ∀ symbol < chart.grammar.symbolCount,
    ((closed.cellAt? span symbol).isSome ↔ ∃ target,
      Relation.ReflTransGen chart.grammar.UnitArrow symbol target ∧
      (chart.cellAt? span target).isSome)
  /-- Every unit derivation is listed once. -/
  count_eq_one : ∀ {production lhs target child : Nat},
    chart.grammar.numbered[production]? = some ⟨lhs, [target]⟩ →
    closed.cellAt? span target = some child →
    (closed.derivationsAt span lhs).count ⟨production, [child]⟩ = 1
  /-- No other derivations are added. -/
  derived : ∀ symbol < chart.grammar.symbolCount,
    ∀ derivation ∈ closed.derivationsAt span symbol,
      derivation ∈ chart.derivationsAt span symbol ∨ ∃ target child,
        chart.grammar.numbered[derivation.production]? =
          some ⟨symbol, [target]⟩ ∧
        closed.cellAt? span target = some child ∧
        derivation.children = [child]
  /-- The earlier derivations stay, and those of one production in their order, before
  any that are added. -/
  kept : ∀ symbol < chart.grammar.symbolCount, ∀ production : Nat,
    (chart.derivationsAt span symbol).filter (·.production = production) <+:
      (closed.derivationsAt span symbol).filter (·.production = production)
  sorted : ∀ symbol < chart.grammar.symbolCount,
    (closed.derivationsAt span symbol).Pairwise fun first second =>
      first.production ≤ second.production
  /-- Cells keep their numbers. -/
  cellAt?_kept : ∀ {other : Span} {symbol number : Nat},
    chart.Admits other symbol → chart.cellAt? other symbol = some number →
    closed.cellAt? other symbol = some number
  /-- The cells of other spans are those that were there before, unchanged. -/
  elsewhere : ∀ (number : Nat) (cell : Cell), cell.span ≠ span →
    (closed.cells[number]? = some cell ↔ chart.cells[number]? = some cell)
  closeUnits_eq : closed.closeUnits span = closed

theorem nodup_derivationsAt
    (distinct : ∀ cell ∈ chart.cells, cell.derivations.toList.Nodup)
    (span : Span) (symbol : Nat) : (chart.derivationsAt span symbol).Nodup := by
  unfold derivationsAt
  split
  · exact .nil
  · rename_i cell found
    obtain ⟨number, _, opened⟩ := Option.bind_eq_some_iff.mp found
    exact distinct cell (Array.mem_of_getElem? opened)

namespace UnitsClosed

variable (unitsClosed : chart.UnitsClosed span)

include unitsClosed

/-- A nonterminal has a cell if unit productions lead from it to one that has. -/
theorem isSome_of_reflTransGen (indexed : chart.Indexed)
    (known : chart.grammar.SymbolsKnown) (ordered : span.start ≤ span.stop)
    (within : span.stop ≤ chart.words.size) {target : Nat}
    (reaches : Relation.ReflTransGen chart.grammar.UnitArrow symbol target)
    (isSome : (chart.cellAt? span target).isSome) :
    (chart.cellAt? span symbol).isSome := by
  induction reaches using Relation.ReflTransGen.head_induction_on with
  | refl => exact isSome
  | head arrow _ middleIsSome =>
      obtain ⟨production, found⟩ := arrow
      obtain ⟨child, childFound⟩ := Option.isSome_iff_exists.mp middleIsSome
      rw [indexed.cellAt?_isSome_iff
        (admits_of_within ordered within (known.of_getElem? found).1)]
      exact List.ne_nil_of_mem (unitsClosed production found childFound)

theorem unitPass_eq : chart.unitPass span = (chart, false) := by
  refine List.foldlRecOn (motive := fun state => state = (chart, false)) _ _
    rfl ?_
  rintro _ rfl production _
  rcases applyUnit_cases chart span production with ⟨applied, _⟩ |
    ⟨lhs, target, child, found, childFound, missing, _⟩
  · simp only [applied]
    rfl
  · exact absurd (unitsClosed production found childFound) missing

/-- Closing a span that is closed and sorted changes nothing. -/
theorem closeUnits_eq_self
    (sorted : ∀ symbol < chart.grammar.symbolCount,
      (chart.derivationsAt span symbol).Pairwise fun first second =>
        first.production ≤ second.production) :
    chart.closeUnits span = chart := by
  have loop : UnitLoop span chart 1 chart := .last unitsClosed.unitPass_eq
  rw [closeUnits, loop.unitPasses_eq (Nat.le_add_left ..),
    sortCells_eq_self sorted]

theorem sortCells (indexed : chart.Indexed) (known : chart.grammar.SymbolsKnown)
    (ordered : span.start ≤ span.stop) (within : span.stop ≤ chart.words.size) :
    (chart.sortCells span).UnitsClosed span := by
  intro production lhs target child found childFound
  rw [(extends_sortCells indexed ordered within).grammar_eq] at found
  rw [cellAt?_sortCells indexed ordered within] at childFound
  rw [derivationsAt_sortCells indexed ordered within
    (admits_of_within ordered within (known.of_getElem? found).1),
    mem_sortByProduction]
  exact unitsClosed production found childFound

end UnitsClosed

namespace UnitExtension

variable {entries : List (Nat × Derivation)}
variable (units : chart.UnitExtension later span entries)
variable (indexed : chart.Indexed) (known : chart.grammar.SymbolsKnown)
variable (ordered : span.start ≤ span.stop)
variable (within : span.stop ≤ chart.words.size)
variable (unitsClosed : later.UnitsClosed span)

include units indexed

theorem nodup_extended (admitted : chart.Admits span symbol)
    (distinct : (chart.derivationsAt span symbol).Nodup) :
    (later.derivationsAt span symbol).Nodup := by
  rw [units.derivationsAt_eq indexed admitted]
  refine List.nodup_append'.mpr ⟨distinct, ?_, fun derivation listed added => ?_⟩
  · refine (units.pairwise_entriesFor symbol).imp ?_
    rintro first second apart rfl
    exact apart rfl
  · exact units.fresh (mem_entriesFor.mp added) listed

include ordered within

theorem derivationsAt_sorted (symbolKnown : symbol < chart.grammar.symbolCount) :
    (later.sortCells span).derivationsAt span symbol =
      sortByProduction (later.derivationsAt span symbol) := by
  have extended := units.extended indexed
  exact derivationsAt_sortCells extended.indexed ordered
    (extended.words_eq ▸ within)
    (extended.admits_iff.mpr (admits_of_within ordered within symbolKnown))

include known unitsClosed

/-- Cells are opened exactly where unit productions lead to cells that were there
before. -/
theorem isSome_cellAt?_iff (symbolKnown : symbol < chart.grammar.symbolCount) :
    (later.cellAt? span symbol).isSome ↔ ∃ target,
      Relation.ReflTransGen chart.grammar.UnitArrow symbol target ∧
      (chart.cellAt? span target).isSome := by
  have extended := units.extended indexed
  constructor
  · intro isSome
    obtain ⟨target, reaches, _, targetIsSome⟩ :=
      units.reached (admits_of_within ordered within symbolKnown) isSome
    exact ⟨target, reaches, targetIsSome⟩
  · rintro ⟨target, reaches, isSome⟩
    obtain ⟨number, found⟩ := Option.isSome_iff_exists.mp isSome
    have targetKnown := known.of_reflTransGen reaches symbolKnown
    have laterFound := extended.cellAt?_kept
      (admits_of_within ordered within targetKnown) found
    refine unitsClosed.isSome_of_reflTransGen extended.indexed
      (extended.grammar_eq ▸ known) ordered (extended.words_eq ▸ within) ?_
      (Option.isSome_of_eq_some laterFound)
    rwa [extended.grammar_eq]

/-- Adding unit derivations until none is missing, and then sorting, closes a
span. -/
theorem unitClosure
    (distinct : ∀ cell ∈ chart.cells, cell.derivations.toList.Nodup) :
    chart.UnitClosure (later.sortCells span) span := by
  have extended := units.extended indexed
  have laterKnown : later.grammar.SymbolsKnown := extended.grammar_eq ▸ known
  have laterWithin : span.stop ≤ later.words.size := extended.words_eq ▸ within
  have cells := cellAt?_sortCells extended.indexed ordered laterWithin
  have final := extended.trans
    (extends_sortCells extended.indexed ordered laterWithin)
  have admits : ∀ {symbol : Nat}, symbol < chart.grammar.symbolCount →
      chart.Admits span symbol := admits_of_within ordered within
  have derivations : ∀ {symbol : Nat}, symbol < chart.grammar.symbolCount →
      (later.sortCells span).derivationsAt span symbol =
        sortByProduction (later.derivationsAt span symbol) :=
    units.derivationsAt_sorted indexed ordered within
  have closed := unitsClosed.sortCells extended.indexed laterKnown ordered
    laterWithin
  have sorted : ∀ symbol < chart.grammar.symbolCount,
      ((later.sortCells span).derivationsAt span symbol).Pairwise
        fun first second => first.production ≤ second.production := by
    intro symbol symbolKnown
    rw [derivations symbolKnown]
    exact pairwise_le_sortByProduction _
  refine ⟨final.grammar_eq, final.words_eq, final.indexed, ?_, ?_, ?_, ?_,
    sorted, final.cellAt?_kept, fun number cell apart =>
      final.getElem?_elsewhere indexed apart,
    closed.closeUnits_eq_self (final.grammar_eq ▸ sorted)⟩
  · intro symbol symbolKnown
    rw [cells]
    exact units.isSome_cellAt?_iff indexed known ordered within unitsClosed
      symbolKnown
  · intro production lhs target child found childFound
    have lhsKnown := (known.of_getElem? found).1
    refine List.count_eq_one_of_mem ?_
      (closed production (final.grammar_eq.symm ▸ found) childFound)
    rw [derivations lhsKnown, (perm_sortByProduction _).nodup_iff]
    exact units.nodup_extended indexed (admits lhsKnown)
      (nodup_derivationsAt distinct span lhs)
  · intro symbol symbolKnown derivation listed
    rw [derivations symbolKnown, mem_sortByProduction,
      units.derivationsAt_eq indexed (admits symbolKnown)] at listed
    rcases List.mem_append.mp listed with earlier | added
    · exact .inl earlier
    · obtain ⟨production, target, child, found, childFound, rfl⟩ :=
        units.derived (mem_entriesFor.mp added)
      exact .inr ⟨target, child, found, (cells ..).trans childFound, rfl⟩
  · intro symbol symbolKnown production
    rw [derivations symbolKnown, filter_sortByProduction,
      units.derivationsAt_eq indexed (admits symbolKnown), List.filter_append]
    exact List.prefix_append ..

end UnitExtension

/-- Whatever the unit productions are, the loop over them ends after one pass more
than there are of them at most, and what it leaves, once sorted, is the closure of
the span.  Of the arena it is only asked that it agrees with the index and that no
cell lists a derivation twice. -/
theorem closeUnits_exact (indexed : chart.Indexed)
    (distinct : ∀ cell ∈ chart.cells, cell.derivations.toList.Nodup)
    (known : chart.grammar.SymbolsKnown) (ordered : span.start ≤ span.stop)
    (within : span.stop ≤ chart.words.size) :
    ∃ passes looped, UnitLoop span chart passes looped ∧
      passes ≤ chart.grammar.unitProductions.length + 1 ∧
      chart.closeUnits span = looped.sortCells span ∧
      chart.UnitClosure (chart.closeUnits span) span := by
  obtain ⟨passes, looped, entries, loop, few, loopedEq, units, unitsClosed⟩ :=
    exists_unitExtension_closed indexed known ordered within
  have closedEq : chart.closeUnits span = looped.sortCells span := by
    rw [closeUnits, loopedEq]
  refine ⟨passes, looped, loop, few, closedEq, ?_⟩
  rw [closedEq]
  exact units.unitClosure indexed known ordered within unitsClosed distinct

end Chart

namespace Grammar

def cyclic : Grammar where
  start := "S"
  productions :=
    #[⟨"S", [.nonterminal "N"]⟩, ⟨"N", [.nonterminal "S"]⟩,
      ⟨"N", [.terminal "x"]⟩]
  nonterminals := #["S", "N"]
  ids := [("N", 1), ("S", 0)]
  byLhs := #[[0], [1, 2]]
  lexicon := [("x", [2])]
  numbered := #[⟨0, [1]⟩, ⟨1, [0]⟩, ⟨1, []⟩]

theorem index_cyclic : index "S" cyclic.productions.toList = .ok cyclic := by
  decide +kernel

end Grammar

theorem Chart.closeUnits_exact_cyclic :
    ∃ passes looped,
      UnitLoop ⟨0, 1⟩ ((empty Grammar.cyclic #["x"]).scan 0) passes looped ∧
      passes ≤ 3 ∧
      ((empty Grammar.cyclic #["x"]).scan 0).UnitClosure
        (((empty Grammar.cyclic #["x"]).scan 0).closeUnits ⟨0, 1⟩) ⟨0, 1⟩ := by
  have extended : (empty Grammar.cyclic #["x"]).Extends
      ((empty Grammar.cyclic #["x"]).add ⟨0, 1⟩ 1 ⟨2, []⟩) ⟨0, 1⟩ :=
    extends_add (filledUpTo_empty Grammar.cyclic #["x"]).indexed
      ⟨by decide, by decide, by decide⟩ _
  have indexed : ((empty Grammar.cyclic #["x"]).scan 0).Indexed :=
    extended.indexed
  have ordered : (⟨0, 1⟩ : Span).start ≤ (⟨0, 1⟩ : Span).stop := by decide
  obtain ⟨passes, looped, loop, few, _, closure⟩ := closeUnits_exact indexed
    (by decide) (Grammar.symbolsKnown_of_index Grammar.index_cyclic) ordered
    (by decide)
  exact ⟨passes, looped, loop, few, closure⟩

end Constituency
