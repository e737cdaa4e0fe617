import Constituency.Chart.Basic
import Mathlib.Tactic.Ring

/-!
# The arena of a chart

The index of a chart and the arena of its cells describe each other: the slot of
a span and a nonterminal holds the number of a cell exactly if that cell lies in
the arena under this number.  Adding a derivation keeps this, touches no other
cell, and never changes the number of a cell.
-/

namespace Constituency

def Cell.changeDerivations (cell : Cell)
    (change : List Derivation → List Derivation) : Cell :=
  { cell with derivations := (change cell.derivations.toList).toArray }

namespace Chart

/-- The span lies within the sentence, and the number belongs to a
nonterminal. -/
structure Admits (chart : Chart) (span : Span) (symbol : Nat) : Prop where
  start_le : span.start ≤ chart.words.size
  stop_le : span.stop ≤ chart.words.size
  symbol_lt : symbol < chart.grammar.symbolCount

/-- The arena and the index agree, and every cell holds a derivation. -/
structure Indexed (chart : Chart) : Prop where
  index_size : chart.index.size =
    (chart.words.size + 1) * (chart.words.size + 1) * chart.grammar.symbolCount
  admits : ∀ {number : Nat} {cell : Cell}, chart.cells[number]? = some cell →
    chart.Admits cell.span cell.symbol
  inhabited : ∀ {number : Nat} {cell : Cell}, chart.cells[number]? = some cell →
    cell.derivations.toList ≠ []
  cellAt?_eq : ∀ {number : Nat} {cell : Cell}, chart.cells[number]? = some cell →
    chart.cellAt? cell.span cell.symbol = some number
  exists_cell : ∀ {span : Span} {symbol number : Nat}, chart.Admits span symbol →
    chart.cellAt? span symbol = some number →
    ∃ cell, chart.cells[number]? = some cell ∧
      cell.span = span ∧ cell.symbol = symbol

def derivationsAt (chart : Chart) (span : Span) (symbol : Nat) :
    List Derivation :=
  match (chart.cellAt? span symbol).bind (chart.cells[·]?) with
  | none => []
  | some cell => cell.derivations.toList

variable {chart : Chart} {span other : Span} {symbol otherSymbol : Nat}

theorem admits_of_within (ordered : span.start ≤ span.stop)
    (within : span.stop ≤ chart.words.size)
    (known : symbol < chart.grammar.symbolCount) :
    chart.Admits span symbol :=
  ⟨Nat.le_trans ordered within, within, known⟩

theorem slot_lt (admitted : chart.Admits span symbol) :
    chart.slot span symbol < (chart.words.size + 1) *
      (chart.words.size + 1) * chart.grammar.symbolCount := by
  obtain ⟨startLe, stopLe, symbolLt⟩ := admitted
  rw [slot]
  generalize chart.words.size = size at *
  generalize chart.grammar.symbolCount = count at *
  have row : span.start * (size + 1) + span.stop + 1 ≤
      (size + 1) * (size + 1) := by
    have := Nat.mul_le_mul_right (size + 1) startLe
    have square : (size + 1) * (size + 1) = size * (size + 1) + (size + 1) := by
      ring
    omega
  have cells := Nat.mul_le_mul_right count row
  rw [Nat.add_mul, Nat.one_mul] at cells
  omega

private theorem digits_inj {width row column row' column' : Nat}
    (below : column < width) (below' : column' < width)
    (same : row * width + column = row' * width + column') :
    row = row' ∧ column = column' := by
  have rows : row = row' := by
    rcases Nat.lt_trichotomy row row' with lower | equal | higher
    · have := Nat.mul_le_mul_right width lower
      rw [Nat.succ_mul] at this
      omega
    · exact equal
    · have := Nat.mul_le_mul_right width higher
      rw [Nat.succ_mul] at this
      omega
  subst row'
  exact ⟨rfl, by omega⟩

theorem slot_inj (admitted : chart.Admits span symbol)
    (otherAdmitted : chart.Admits other otherSymbol)
    (same : chart.slot span symbol = chart.slot other otherSymbol) :
    other = span ∧ otherSymbol = symbol := by
  obtain ⟨places, symbols⟩ := digits_inj admitted.symbol_lt
    otherAdmitted.symbol_lt same
  obtain ⟨starts, stops⟩ := digits_inj (Nat.lt_succ_of_le admitted.stop_le)
    (Nat.lt_succ_of_le otherAdmitted.stop_le) places
  obtain ⟨start, stop⟩ := span
  obtain ⟨start', stop'⟩ := other
  exact ⟨by simp_all, symbols.symm⟩

theorem Indexed.getElem?_slot (indexed : chart.Indexed)
    (admitted : chart.Admits span symbol) :
    chart.index[chart.slot span symbol]? =
      some (chart.cellAt? span symbol) := by
  have within : chart.slot span symbol < chart.index.size :=
    indexed.index_size ▸ slot_lt admitted
  rw [cellAt?, Array.getD_eq_getD_getElem?, Array.getElem?_eq_getElem within,
    Option.getD_some]

theorem derivationsAt_of_cellAt? {number : Nat} {cell : Cell}
    (found : chart.cellAt? span symbol = some number)
    (opened : chart.cells[number]? = some cell) :
    chart.derivationsAt span symbol = cell.derivations.toList := by
  simp [derivationsAt, found, opened]

theorem derivationsAt_of_cellAt?_eq_none
    (missing : chart.cellAt? span symbol = none) :
    chart.derivationsAt span symbol = [] := by
  simp [derivationsAt, missing]

theorem Indexed.cellAt?_isSome_iff (indexed : chart.Indexed)
    (admitted : chart.Admits span symbol) :
    (chart.cellAt? span symbol).isSome ↔
      chart.derivationsAt span symbol ≠ [] := by
  cases found : chart.cellAt? span symbol with
  | none => simp [derivationsAt_of_cellAt?_eq_none found]
  | some number =>
      obtain ⟨cell, opened, _⟩ := indexed.exists_cell admitted found
      rw [derivationsAt_of_cellAt? found opened]
      simpa using indexed.inhabited opened

/-- A cell has the same number in another chart if this is found there with the
same derivations. -/
theorem Indexed.getElem?_of_same {other : Chart} (indexed : chart.Indexed)
    (otherIndexed : other.Indexed) {number : Nat} {cell : Cell}
    (admitted : other.Admits cell.span cell.symbol)
    (sameCell : chart.cellAt? cell.span cell.symbol =
      other.cellAt? cell.span cell.symbol)
    (sameDerivations : chart.derivationsAt cell.span cell.symbol =
      other.derivationsAt cell.span cell.symbol)
    (opened : chart.cells[number]? = some cell) :
    other.cells[number]? = some cell := by
  have found := indexed.cellAt?_eq opened
  have otherFound := sameCell.symm.trans found
  obtain ⟨otherCell, otherOpened, spanEq, symbolEq⟩ :=
    otherIndexed.exists_cell admitted otherFound
  rw [derivationsAt_of_cellAt? found opened,
    derivationsAt_of_cellAt? otherFound otherOpened] at sameDerivations
  obtain ⟨symbol, span, derivations⟩ := cell
  obtain ⟨otherSymbol, otherSpan, otherDerivations⟩ := otherCell
  dsimp only at spanEq symbolEq sameDerivations
  rw [otherOpened, spanEq, symbolEq, Array.toList_inj.mp sameDerivations]

theorem holds_eq_true_iff {derivation : Derivation} :
    chart.holds span symbol derivation = true ↔
      derivation ∈ chart.derivationsAt span symbol := by
  unfold holds derivationsAt
  cases chart.cellAt? span symbol with
  | none => simp
  | some number =>
      cases opened : chart.cells[number]? with
      | none => simp [opened]
      | some cell => simp [opened]

def changeCell (chart : Chart) (number : Nat)
    (change : List Derivation → List Derivation) : Chart :=
  { chart with
    cells := chart.cells.modify number (·.changeDerivations change) }

theorem getElem?_changeCell (chart : Chart) (number index : Nat)
    (change : List Derivation → List Derivation) :
    (chart.changeCell number change).cells[index]? =
      if number = index then
        chart.cells[index]?.map (·.changeDerivations change)
      else
        chart.cells[index]? := by
  simp [changeCell, Array.getElem?_modify]

theorem changeCell_eq_self {number : Nat}
    {change : List Derivation → List Derivation}
    (same : ∀ cell : Cell, chart.cells[number]? = some cell →
      change cell.derivations.toList = cell.derivations.toList) :
    chart.changeCell number change = chart := by
  have cells : chart.cells.modify number (·.changeDerivations change) =
      chart.cells := by
    apply Array.ext_getElem?
    intro index
    rw [Array.getElem?_modify]
    split
    · rename_i here
      subst index
      cases opened : chart.cells[number]? with
      | none => rfl
      | some cell =>
          rw [Option.map_some, Cell.changeDerivations, same cell opened]
    · rfl
  rw [changeCell, cells]

theorem map_changeCell {α : Type} {view : Cell → α} (chart : Chart)
    (number : Nat) (change : List Derivation → List Derivation)
    (same : ∀ cell : Cell, view (cell.changeDerivations change) = view cell) :
    (chart.changeCell number change).cells.toList.map view =
      chart.cells.toList.map view := by
  apply List.ext_getElem?
  intro index
  rw [List.getElem?_map, List.getElem?_map, Array.getElem?_toList,
    Array.getElem?_toList, getElem?_changeCell]
  split
  · rw [Option.map_map]
    exact congrArg (Option.map · _) (funext same)
  · rfl

theorem indexed_changeCell (indexed : chart.Indexed) (number : Nat)
    {change : List Derivation → List Derivation}
    (nonempty : ∀ derivations, derivations ≠ [] → change derivations ≠ []) :
    (chart.changeCell number change).Indexed := by
  have kept : ∀ {index : Nat} {cell : Cell},
      (chart.changeCell number change).cells[index]? = some cell →
      ∃ old, chart.cells[index]? = some old ∧ cell.span = old.span ∧
        cell.symbol = old.symbol ∧ (cell.derivations.toList =
          old.derivations.toList ∨
          cell.derivations.toList = change old.derivations.toList) := by
    intro index cell found
    rw [getElem?_changeCell] at found
    split at found
    · obtain ⟨old, opened, rfl⟩ := Option.map_eq_some_iff.mp found
      exact ⟨old, opened, rfl, rfl, .inr rfl⟩
    · exact ⟨cell, found, rfl, rfl, .inl rfl⟩
  constructor
  · exact indexed.index_size
  · intro index cell found
    obtain ⟨old, opened, spanEq, symbolEq, _⟩ := kept found
    rw [spanEq, symbolEq]
    obtain ⟨startLe, stopLe, symbolLt⟩ := indexed.admits opened
    exact ⟨startLe, stopLe, symbolLt⟩
  · intro index cell found
    obtain ⟨old, opened, _, _, same | changed⟩ := kept found
    · exact same ▸ indexed.inhabited opened
    · exact changed ▸ nonempty _ (indexed.inhabited opened)
  · intro index cell found
    obtain ⟨old, opened, spanEq, symbolEq, _⟩ := kept found
    rw [spanEq, symbolEq]
    exact indexed.cellAt?_eq opened
  · intro span symbol index admitted found
    obtain ⟨old, opened, rfl, rfl⟩ := indexed.exists_cell
      ⟨admitted.start_le, admitted.stop_le, admitted.symbol_lt⟩ found
    rw [getElem?_changeCell, opened]
    split
    · exact ⟨_, rfl, rfl, rfl⟩
    · exact ⟨old, rfl, rfl, rfl⟩

/-- Changing one cell changes the derivations of its nonterminal on its span, and
no others. -/
theorem derivationsAt_changeCell (indexed : chart.Indexed)
    {change : List Derivation → List Derivation} {number : Nat}
    (admitted : chart.Admits span symbol)
    (found : chart.cellAt? span symbol = some number)
    (otherAdmitted : chart.Admits other otherSymbol) :
    (chart.changeCell number change).derivationsAt other otherSymbol =
      if other = span ∧ otherSymbol = symbol then
        change (chart.derivationsAt span symbol)
      else
        chart.derivationsAt other otherSymbol := by
  obtain ⟨cell, opened, spanEq, symbolEq⟩ := indexed.exists_cell admitted found
  split
  · rename_i same
    rw [same.1, same.2]
    have changed : (chart.changeCell number change).cells[number]? =
        some (cell.changeDerivations change) := by
      rw [getElem?_changeCell, if_pos rfl, opened]
      rfl
    have found' : (chart.changeCell number change).cellAt? span symbol =
        some number := found
    rw [derivationsAt_of_cellAt? found opened,
      derivationsAt_of_cellAt? found' changed]
    rfl
  · rename_i apart
    cases otherFound : chart.cellAt? other otherSymbol with
    | none =>
        rw [derivationsAt_of_cellAt?_eq_none otherFound]
        exact derivationsAt_of_cellAt?_eq_none otherFound
    | some otherNumber =>
        obtain ⟨otherCell, otherOpened, otherSpan, otherSymbolEq⟩ :=
          indexed.exists_cell otherAdmitted otherFound
        have numbersApart : number ≠ otherNumber := by
          rintro rfl
          rw [opened] at otherOpened
          injection otherOpened with same
          subst otherCell
          exact apart ⟨otherSpan.symm.trans spanEq,
            otherSymbolEq.symm.trans symbolEq⟩
        have kept : (chart.changeCell number change).cells[otherNumber]? =
            some otherCell := by
          rw [getElem?_changeCell, if_neg numbersApart, otherOpened]
        rw [derivationsAt_of_cellAt? otherFound otherOpened]
        exact derivationsAt_of_cellAt? otherFound kept

def openCell (chart : Chart) (span : Span) (symbol : Nat)
    (derivation : Derivation) : Chart :=
  { chart with
    cells := chart.cells.push ⟨symbol, span, #[derivation]⟩
    index :=
      chart.index.setIfInBounds (chart.slot span symbol)
        (some chart.cells.size)
    opened := chart.opened.push ⟨span, chart.grammar.symbolName symbol⟩ }

theorem cellAt?_openCell (indexed : chart.Indexed)
    (admitted : chart.Admits span symbol)
    (otherAdmitted : chart.Admits other otherSymbol)
    (derivation : Derivation) :
    (chart.openCell span symbol derivation).cellAt? other otherSymbol =
      if other = span ∧ otherSymbol = symbol then
        some chart.size
      else
        chart.cellAt? other otherSymbol := by
  have within : chart.slot span symbol < chart.index.size :=
    indexed.index_size ▸ slot_lt admitted
  change (chart.index.setIfInBounds (chart.slot span symbol)
    (some chart.cells.size)).getD (chart.slot other otherSymbol) none = _
  rw [Array.getD_eq_getD_getElem?, Array.getElem?_setIfInBounds]
  split
  · rename_i sameSlot
    rw [if_pos (slot_inj admitted otherAdmitted sameSlot)]
    rfl
  · rename_i slotsApart
    rw [if_neg, cellAt?, Array.getD_eq_getD_getElem?]
    rintro ⟨rfl, rfl⟩
    exact slotsApart rfl

theorem getElem?_openCell (chart : Chart) (span : Span) (symbol : Nat)
    (derivation : Derivation) (number : Nat) :
    (chart.openCell span symbol derivation).cells[number]? =
      if number = chart.size then
        some ⟨symbol, span, #[derivation]⟩
      else
        chart.cells[number]? :=
  Array.getElem?_push

theorem exists_cell_of_lt_size {number : Nat} (known : number < chart.size) :
    ∃ cell, chart.cells[number]? = some cell :=
  ⟨_, Array.getElem?_eq_getElem known⟩

theorem lt_size_of_getElem? {number : Nat} {cell : Cell}
    (opened : chart.cells[number]? = some cell) : number < chart.size :=
  (Array.getElem?_eq_some_iff.mp opened).1

theorem indexed_openCell (indexed : chart.Indexed)
    (admitted : chart.Admits span symbol)
    (missing : chart.cellAt? span symbol = none) (derivation : Derivation) :
    (chart.openCell span symbol derivation).Indexed := by
  have cases : ∀ {number : Nat} {cell : Cell},
      (chart.openCell span symbol derivation).cells[number]? = some cell →
      number = chart.size ∧ cell = ⟨symbol, span, #[derivation]⟩ ∨
        number ≠ chart.size ∧ chart.cells[number]? = some cell := by
    intro number cell found
    rw [getElem?_openCell] at found
    split at found
    · rename_i last
      injection found with same
      exact .inl ⟨last, same.symm⟩
    · rename_i earlier
      exact .inr ⟨earlier, found⟩
  constructor
  · simpa [openCell] using indexed.index_size
  · intro number cell found
    rcases cases found with ⟨rfl, rfl⟩ | ⟨_, opened⟩
    · exact ⟨admitted.start_le, admitted.stop_le, admitted.symbol_lt⟩
    · obtain ⟨startLe, stopLe, symbolLt⟩ := indexed.admits opened
      exact ⟨startLe, stopLe, symbolLt⟩
  · intro number cell found
    rcases cases found with ⟨rfl, rfl⟩ | ⟨_, opened⟩
    · simp
    · exact indexed.inhabited opened
  · intro number cell found
    rcases cases found with ⟨rfl, rfl⟩ | ⟨_, opened⟩
    · rw [cellAt?_openCell indexed admitted admitted, if_pos ⟨rfl, rfl⟩]
    · rw [cellAt?_openCell indexed admitted (indexed.admits opened), if_neg,
        indexed.cellAt?_eq opened]
      rintro ⟨sameSpan, sameSymbol⟩
      have := indexed.cellAt?_eq opened
      rw [sameSpan, sameSymbol, missing] at this
      simp at this
  · intro other otherSymbol number otherAdmitted found
    have otherAdmitted : chart.Admits other otherSymbol :=
      ⟨otherAdmitted.start_le, otherAdmitted.stop_le, otherAdmitted.symbol_lt⟩
    rw [cellAt?_openCell indexed admitted otherAdmitted] at found
    split at found
    · rename_i same
      injection found with last
      refine ⟨⟨symbol, span, #[derivation]⟩, ?_, same.1.symm, same.2.symm⟩
      rw [getElem?_openCell, if_pos last.symm]
    · obtain ⟨cell, opened, spanEq, symbolEq⟩ :=
        indexed.exists_cell otherAdmitted found
      refine ⟨cell, ?_, spanEq, symbolEq⟩
      rw [getElem?_openCell, if_neg (Nat.ne_of_lt (lt_size_of_getElem? opened)),
        opened]

theorem derivationsAt_openCell (indexed : chart.Indexed)
    (admitted : chart.Admits span symbol)
    (otherAdmitted : chart.Admits other otherSymbol)
    (derivation : Derivation) :
    (chart.openCell span symbol derivation).derivationsAt other otherSymbol =
      if other = span ∧ otherSymbol = symbol then
        [derivation]
      else
        chart.derivationsAt other otherSymbol := by
  have found := cellAt?_openCell indexed admitted otherAdmitted derivation
  split
  · rename_i same
    rw [if_pos same] at found
    have opened : (chart.openCell span symbol derivation).cells[chart.size]? =
        some ⟨symbol, span, #[derivation]⟩ := by
      rw [getElem?_openCell, if_pos rfl]
    rw [derivationsAt_of_cellAt? found opened]
  · rename_i apart
    rw [if_neg apart] at found
    cases otherFound : chart.cellAt? other otherSymbol with
    | none =>
        rw [derivationsAt_of_cellAt?_eq_none otherFound]
        exact derivationsAt_of_cellAt?_eq_none (found.trans otherFound)
    | some number =>
        obtain ⟨cell, opened, _⟩ := indexed.exists_cell otherAdmitted otherFound
        have kept : (chart.openCell span symbol derivation).cells[number]? =
            some cell := by
          rw [getElem?_openCell,
            if_neg (Nat.ne_of_lt (lt_size_of_getElem? opened)), opened]
        rw [derivationsAt_of_cellAt? otherFound opened]
        exact derivationsAt_of_cellAt? (found.trans otherFound) kept

end Chart

end Constituency
