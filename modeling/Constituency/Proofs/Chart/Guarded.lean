import Constituency.Proofs.Chart.Size
import Constituency.Proofs.Chart.Split
import Constituency.Proofs.Chart.UnitClosure

/-!
# Filling a chart under guard

The filling of a chart is repeated with a guard at every access: it fails as soon as
a slot lies beyond the index, a cell is followed that is not in the arena, a
difference would be negative, the number of a new cell cannot be stored, or passes
over the unit productions do not come to an end.

No guard ever fails, and the guarded filling gives the same chart.  Every step keeps
the chart tidy, from which each guard follows.
-/

namespace Constituency

/-- A loop that is guarded at each step succeeds and gives what it gives without
guards, if each step does so and keeps what the guards rely on. -/
theorem foldlM_eq_some {α σ : Type} {guarded : σ → α → Option σ}
    {step : σ → α → σ} {P : σ → Prop} {elements : List α} {state : σ}
    (each : ∀ element ∈ elements, ∀ state, P state →
      guarded state element = some (step state element) ∧ P (step state element))
    (sound : P state) :
    elements.foldlM guarded state = some (elements.foldl step state) ∧
      P (elements.foldl step state) := by
  induction elements generalizing state with
  | nil => exact ⟨rfl, sound⟩
  | cons element rest ih =>
      obtain ⟨succeeds, soundNext⟩ := each element (by simp) state sound
      rw [List.foldlM_cons, List.foldl_cons, succeeds]
      exact ih (fun other member => each other (by simp [member])) soundNext

namespace Chart

namespace Guarded

def lookUp (chart : Chart) (span : Span) (symbol : Nat) : Option (Option Nat) :=
  chart.index[chart.slot span symbol]?

def holds (chart : Chart) (span : Span) (symbol : Nat)
    (derivation : Derivation) : Option Bool := do
  match ← lookUp chart span symbol with
  | none => some false
  | some number =>
      let cell ← chart.cells[number]?
      some (cell.derivations.contains derivation)

def modify (chart : Chart) (number : Nat) (change : Cell → Cell) : Option Chart :=
  if number < chart.cells.size then
    some { chart with cells := chart.cells.modify number change }
  else
    none

/-- Opens an empty cell for a nonterminal on a span, under a number that has been
stored. -/
def openEmpty (chart : Chart) (span : Span) (symbol number : Nat) : Chart :=
  { chart with
    cells := chart.cells.push ⟨symbol, span, #[]⟩
    index :=
      chart.index.setIfInBounds (chart.slot span symbol) (some number)
    opened := chart.opened.push ⟨span, chart.grammar.symbolName symbol⟩ }

section Filling

/- How the number of a new cell is stored, if it can be. -/
variable (store : Nat → Option Nat)

/-- Adds a derivation to the cell of a nonterminal on a span.  The cell is opened if
there is none yet, and is followed by its stored number. -/
def add (chart : Chart) (span : Span) (symbol : Nat) (derivation : Derivation) :
    Option Chart := do
  match ← lookUp chart span symbol with
  | some number => modify chart number (·.push derivation)
  | none =>
      let number ← store chart.cells.size
      modify (openEmpty chart span symbol number) number (·.push derivation)

def scan (chart : Chart) (position : Nat) : Option Chart := do
  let word ← chart.words[position]?
  (chart.grammar.lexicalFor word).foldlM
    (fun chart production => do
      let numbered ← chart.grammar.numbered[production]?
      add store chart ⟨position, position + 1⟩ numbered.lhs ⟨production, []⟩)
    chart

def combineProduction (span : Span) (chart : Chart) (production : Nat) :
    Option Chart := do
  let numbered ← chart.grammar.numbered[production]?
  let length ← difference? span.stop span.start
  if 2 ≤ numbered.rhs.length ∧ numbered.rhs.length ≤ length then
    let (_, found) ← collect (lookUp chart) numbered.rhs span #[] #[]
    found.toList.foldlM
      (fun chart children =>
        add store chart span numbered.lhs ⟨production, children⟩)
      chart
  else
    some chart

def combine (chart : Chart) (span : Span) : Option Chart :=
  (List.range chart.grammar.numbered.size).foldlM (combineProduction store span)
    chart

/-- Applies a production within a span, if it is a unit production whose child
has a cell there.  The result tells whether a derivation was added. -/
def applyUnit (span : Span) (chart : Chart) (production : Nat) :
    Option (Chart × Bool) := do
  let numbered ← chart.grammar.numbered[production]?
  match numbered.unitTarget? with
  | none => some (chart, false)
  | some target =>
      match ← lookUp chart span target with
      | none => some (chart, false)
      | some child =>
          if ← holds chart span numbered.lhs ⟨production, [child]⟩ then
            some (chart, false)
          else
            let chart ← add store chart span numbered.lhs ⟨production, [child]⟩
            some (chart, true)

def unitPass (chart : Chart) (span : Span) : Option (Chart × Bool) :=
  (List.range chart.grammar.numbered.size).foldlM
    (fun (chart, changed) production => do
      let (chart, added) ← applyUnit store span chart production
      some (chart, changed || added))
    (chart, false)

/-- Makes passes over a span until one of them adds nothing.  This fails if the given
number of passes are not enough. -/
def unitPasses (span : Span) : Nat → Chart → Option Chart
  | 0, _ => none
  | remaining + 1, chart => do
      let (chart, changed) ← unitPass store chart span
      if changed then unitPasses span remaining chart else some chart

def sortCell (span : Span) (chart : Chart) (symbol : Nat) : Option Chart := do
  match ← lookUp chart span symbol with
  | none => some chart
  | some number =>
      modify chart number fun cell =>
        { cell with
          derivations := (sortByProduction cell.derivations.toList).toArray }

def closeUnits (chart : Chart) (span : Span) : Option Chart := do
  let chart ← unitPasses store span (chart.grammar.numbered.size + 1) chart
  (List.range chart.grammar.symbolCount).foldlM (sortCell span) chart

def fillWord (chart : Chart) (position : Nat) : Option Chart := do
  let chart ← scan store chart position
  closeUnits store chart ⟨position, position + 1⟩

def fillLonger (length : Nat) (chart : Chart) (start : Nat) : Option Chart := do
  let chart ← combine store chart ⟨start, start + length⟩
  closeUnits store chart ⟨start, start + length⟩

def fill (grammar : Grammar) (words : Array String) : Option Chart := do
  let chart ← (List.range words.size).foldlM (fillWord store)
    (empty grammar words)
  (List.range' 2 (words.size - 1)).foldlM
    (fun chart length => do
      let last ← difference? words.size length
      (List.range (last + 1)).foldlM (fillLonger store length) chart)
    chart

end Filling

section Access

variable {grammar : Grammar} {words : Array String} {chart : Chart}
variable {span : Span} {symbol number : Nat}

theorem lookUp_eq (indexed : chart.Indexed) (admitted : chart.Admits span symbol) :
    lookUp chart span symbol = some (chart.cellAt? span symbol) :=
  indexed.getElem?_slot admitted

theorem holds_eq (indexed : chart.Indexed) (admitted : chart.Admits span symbol)
    (derivation : Derivation) :
    holds chart span symbol derivation =
      some (chart.holds span symbol derivation) := by
  rw [holds, Chart.holds, lookUp_eq indexed admitted, Option.bind_eq_bind,
    Option.bind_some]
  cases found : chart.cellAt? span symbol with
  | none => rfl
  | some number =>
      obtain ⟨cell, opened, _⟩ := indexed.exists_cell admitted found
      dsimp only
      rw [opened]
      rfl

theorem modify_eq (known : number < chart.size) (change : Cell → Cell) :
    modify chart number change =
      some { chart with cells := chart.cells.modify number change } :=
  if_pos known

/-- A cell that is opened empty and then given its derivation is opened with it. -/
theorem modify_openEmpty (chart : Chart) (span : Span) (symbol : Nat)
    (derivation : Derivation) :
    modify (openEmpty chart span symbol chart.size) chart.size
        (·.push derivation) =
      some (chart.openCell span symbol derivation) := by
  have cells : (chart.cells.push ⟨symbol, span, #[]⟩).modify chart.cells.size
      (·.push derivation) = chart.cells.push ⟨symbol, span, #[derivation]⟩ := by
    apply Array.ext_getElem?
    intro index
    rw [Array.getElem?_modify, Array.getElem?_push, Array.getElem?_push]
    by_cases last : index = chart.cells.size
    · rw [if_pos last.symm, if_pos last, if_pos last]
      rfl
    · rw [if_neg (Ne.symm last), if_neg last, if_neg last]
  have known : chart.size < (openEmpty chart span symbol chart.size).size := by
    simp [openEmpty, size]
  rw [modify_eq known]
  exact congrArg (fun cells => some { chart.openCell span symbol derivation with
    cells }) cells

theorem collect_lookUp {rhs : List Nat} (indexed : chart.Indexed)
    (known : ∀ symbol ∈ rhs, symbol < chart.grammar.symbolCount)
    (within : span.stop ≤ chart.words.size)
    (room : span.start + rhs.length ≤ span.stop) :
    collect (lookUp chart) rhs span #[] #[] =
      some (#[], (chart.splits rhs span).toArray) := by
  have listed : collect (lookUp chart) rhs span #[] #[] = some (#[], #[] ++
      ((tilings chart.cellAt? rhs span).map
        ((#[] : Array Nat).toList ++ ·)).toArray) :=
    collect_eq_some room (fun start stop symbol _ proper stopLe member =>
      lookUp_eq indexed (admits_of_within (Nat.le_of_lt proper)
        (Nat.le_trans stopLe within) (known symbol member))) _ _
  rw [listed, splits_eq_tilings]
  simp

end Access

section Filling

variable {grammar : Grammar} {words : Array String} {chart final : Chart}
variable {span : Span} {symbol production : Nat} {store : Nat → Option Nat}
variable (stores : ∀ number < grammar.cellBound words.size,
  store number = some number)

include stores

theorem add_eq (tidy : Tidy grammar words chart)
    (admitted : chart.Admits span symbol) (proper : span.start < span.stop)
    (derivation : Derivation) :
    add store chart span symbol derivation =
      some (chart.add span symbol derivation) := by
  rw [add, lookUp_eq tidy.indexed admitted, Option.bind_eq_bind,
    Option.bind_some]
  cases found : chart.cellAt? span symbol with
  | none =>
      have stored : store chart.cells.size = some chart.size :=
        stores chart.size (tidy.size_lt admitted proper found)
      dsimp only
      rw [stored, Option.bind_eq_bind, Option.bind_some, add_eq_openCell found]
      exact modify_openEmpty chart span symbol derivation
  | some number =>
      dsimp only
      rw [modify_eq (tidy.lt_size admitted found), Chart.add, found]

theorem scan_eq (wellFormed : grammar.WellFormed)
    (tidy : Tidy grammar words chart) {position : Nat}
    (within : position < words.size) :
    scan store chart position = some (chart.scan position) ∧
      Tidy grammar words (chart.scan position) := by
  have placed : chart.words[position]? = some words[position] := by
    rw [tidy.words_eq]
    exact Array.getElem?_eq_getElem within
  rw [scan, Chart.scan, placed, Option.bind_eq_bind, Option.bind_some]
  refine foldlM_eq_some (fun production listed chart' tidy' => ?_) tidy
  rw [tidy.grammar_eq] at listed
  obtain ⟨lhs, _, found, _⟩ := wellFormed.mem_lexicalFor_iff.mp listed
  have admitted : chart'.Admits ⟨position, position + 1⟩ lhs :=
    tidy'.admits (Nat.le_succ _) within (wellFormed.known found).1
  rw [tidy'.grammar_eq, found, Option.bind_eq_bind, Option.bind_some]
  exact ⟨add_eq stores tidy' admitted (Nat.lt_succ_self _) _,
    tidy'.add admitted (Nat.lt_succ_self _) _⟩

section Span

variable (known : grammar.SymbolsKnown) (proper : span.start < span.stop)
variable (within : span.stop ≤ words.size)

include known proper within

theorem combineProduction_eq (tidy : Tidy grammar words chart)
    {numbered : NumberedProduction}
    (found : grammar.numbered[production]? = some numbered) :
    combineProduction store span chart production =
        some (chart.combineProduction span production) ∧
      Tidy grammar words (chart.combineProduction span production) := by
  obtain ⟨lhs, rhs⟩ := numbered
  obtain ⟨lhsKnown, rhsKnown⟩ := known.of_getElem? found
  have length : difference? span.stop span.start = some span.length :=
    if_pos (Nat.le_of_lt proper)
  rw [combineProduction, Chart.combineProduction, tidy.grammar_eq, found, length]
  simp only [Option.bind_eq_bind, Option.bind_some]
  split
  · rename_i room
    rw [Span.length] at room
    rw [collect_lookUp tidy.indexed (tidy.grammar_eq ▸ rhsKnown)
      (tidy.words_eq ▸ within) (by omega), Option.bind_some]
    refine foldlM_eq_some (fun children _ chart' tidy' => ?_) tidy
    have admitted := tidy'.admits (Nat.le_of_lt proper) within lhsKnown
    exact ⟨add_eq stores tidy' admitted proper _, tidy'.add admitted proper _⟩
  · exact ⟨rfl, tidy⟩

theorem combine_eq (tidy : Tidy grammar words chart) :
    combine store chart span = some (chart.combine span) ∧
      Tidy grammar words (chart.combine span) := by
  refine foldlM_eq_some (fun production listed chart' tidy' => ?_) tidy
  rw [tidy.grammar_eq, List.mem_range] at listed
  exact combineProduction_eq stores known proper within tidy'
    (Array.getElem?_eq_getElem listed)

theorem applyUnit_eq (tidy : Tidy grammar words chart)
    {numbered : NumberedProduction}
    (found : grammar.numbered[production]? = some numbered) :
    applyUnit store span chart production =
        some (chart.applyUnit span production) ∧
      Tidy grammar words (chart.applyUnit span production).1 := by
  obtain ⟨lhs, rhs⟩ := numbered
  obtain ⟨lhsKnown, rhsKnown⟩ := known.of_getElem? found
  have ordered := Nat.le_of_lt proper
  have admitted := tidy.admits ordered within lhsKnown
  rw [applyUnit, Chart.applyUnit, tidy.grammar_eq, found]
  simp only [Option.bind_eq_bind, Option.bind_some]
  cases unit : NumberedProduction.unitTarget? ⟨lhs, rhs⟩ with
  | none => exact ⟨rfl, tidy⟩
  | some target =>
      obtain rfl : rhs = [target] := Grammar.unitTarget?_eq_some_iff.mp unit
      have targetAdmitted :=
        tidy.admits ordered within (rhsKnown target (by simp))
      simp only [lookUp_eq tidy.indexed targetAdmitted, Option.bind_some]
      cases chart.cellAt? span target with
      | none => exact ⟨rfl, tidy⟩
      | some child =>
          simp only [holds_eq tidy.indexed admitted, Option.bind_some]
          split
          · exact ⟨rfl, tidy⟩
          · rw [add_eq stores tidy admitted proper]
            exact ⟨rfl, tidy.add admitted proper _⟩

theorem unitPass_eq (tidy : Tidy grammar words chart) :
    unitPass store chart span = some (chart.unitPass span) ∧
      Tidy grammar words (chart.unitPass span).1 := by
  refine foldlM_eq_some (P := fun state : Chart × Bool =>
    Tidy grammar words state.1) ?_ tidy
  rintro production listed ⟨chart', changed⟩ tidy'
  rw [tidy.grammar_eq, List.mem_range] at listed
  obtain ⟨applied, tidyNext⟩ := applyUnit_eq stores known proper within tidy'
    (Array.getElem?_eq_getElem listed)
  dsimp only
  rw [applied]
  exact ⟨rfl, tidyNext⟩

theorem unitPasses_eq {passes remaining : Nat}
    (loop : UnitLoop span chart passes final) (enough : passes ≤ remaining)
    (tidy : Tidy grammar words chart) :
    unitPasses store span remaining chart = some final ∧
      Tidy grammar words final := by
  induction loop generalizing remaining with
  | last pass =>
      obtain ⟨remaining, rfl⟩ := Nat.exists_eq_add_of_le' enough
      obtain ⟨guarded, tidyNext⟩ := unitPass_eq stores known proper within tidy
      rw [pass] at guarded tidyNext
      rw [unitPasses, guarded]
      exact ⟨rfl, tidyNext⟩
  | next pass rest ih =>
      obtain ⟨remaining, rfl⟩ := Nat.exists_eq_add_of_le' enough
      obtain ⟨guarded, tidyNext⟩ := unitPass_eq stores known proper within tidy
      rw [pass] at guarded tidyNext
      rw [← Nat.add_assoc, unitPasses, guarded]
      exact ih (by omega) tidyNext

omit stores known in
theorem sortCell_eq (tidy : Tidy grammar words chart)
    (symbolKnown : symbol < grammar.symbolCount) :
    sortCell span chart symbol = some (chart.sortCell span symbol) := by
  have admitted := tidy.admits (Nat.le_of_lt proper) within symbolKnown
  rw [sortCell, Chart.sortCell, lookUp_eq tidy.indexed admitted,
    Option.bind_eq_bind, Option.bind_some]
  cases found : chart.cellAt? span symbol with
  | none => rfl
  | some number => exact modify_eq (tidy.lt_size admitted found) _

theorem closeUnits_eq (tidy : Tidy grammar words chart) :
    closeUnits store chart span = some (chart.closeUnits span) ∧
      Tidy grammar words (chart.closeUnits span) := by
  have ordered := Nat.le_of_lt proper
  obtain ⟨passes, looped, entries, loop, few, loopedEq, _⟩ :=
    exists_unitExtension_closed tidy.indexed (tidy.grammar_eq ▸ known) ordered
      (tidy.words_eq ▸ within)
  have enough : passes ≤ chart.grammar.numbered.size + 1 := by
    have := chart.grammar.length_unitProductions_le
    omega
  obtain ⟨guarded, tidyLooped⟩ :=
    unitPasses_eq stores known proper within loop enough tidy
  rw [closeUnits, Chart.closeUnits, guarded, loopedEq, Option.bind_eq_bind,
    Option.bind_some]
  refine foldlM_eq_some (fun symbol member chart' tidy' => ?_) tidyLooped
  rw [tidyLooped.grammar_eq, List.mem_range] at member
  exact ⟨sortCell_eq proper within tidy' member,
    tidy'.sortCell span symbol⟩

end Span

theorem fillWord_eq (wellFormed : grammar.WellFormed)
    (tidy : Tidy grammar words chart) {position : Nat}
    (within : position < words.size) :
    fillWord store chart position =
        some (chart.fillSpan ⟨position, position + 1⟩) ∧
      Tidy grammar words (chart.fillSpan ⟨position, position + 1⟩) := by
  obtain ⟨scanned, tidy⟩ := scan_eq stores wellFormed tidy within
  have opens : openStep ⟨position, position + 1⟩ = .scan position :=
    if_pos (Nat.add_sub_cancel_left ..)
  rw [fillWord, scanned, fillSpan, opens]
  exact closeUnits_eq stores wellFormed.symbolsKnown (Nat.lt_succ_self _) within
    tidy

theorem fillLonger_eq (known : grammar.SymbolsKnown)
    (tidy : Tidy grammar words chart) {length start : Nat} (long : 2 ≤ length)
    (within : start + length ≤ words.size) :
    fillLonger store length chart start =
        some (chart.fillSpan ⟨start, start + length⟩) ∧
      Tidy grammar words (chart.fillSpan ⟨start, start + length⟩) := by
  have proper : Span.start ⟨start, start + length⟩ <
      Span.stop ⟨start, start + length⟩ := by
    dsimp only
    omega
  obtain ⟨combined, tidy⟩ := combine_eq stores known proper within tidy
  have opens : openStep ⟨start, start + length⟩ =
      .combine ⟨start, start + length⟩ := by
    refine if_neg ?_
    dsimp only [Span.length]
    omega
  rw [fillLonger, combined, fillSpan, opens]
  exact closeUnits_eq stores known proper within tidy

omit stores in
private theorem fill_eq_foldl (grammar : Grammar) (words : Array String) :
    Chart.fill grammar words =
      (List.range' 2 (words.size - 1)).foldl
        (fun chart length => (List.range (words.size + 1 - length)).foldl
          (fun chart start => chart.fillSpan ⟨start, start + length⟩) chart)
        ((List.range words.size).foldl
          (fun chart position => chart.fillSpan ⟨position, position + 1⟩)
          (empty grammar words)) := by
  rw [Chart.fill_eq, fillSpans]
  cases words.size with
  | zero => rfl
  | succ count =>
      rw [List.range'_succ, List.flatMap_cons, List.foldl_append,
        List.foldl_flatMap, List.foldl_map]
      simp only [List.foldl_map, Nat.add_sub_cancel]

/-- No guard fails while a chart is filled. -/
theorem fill_eq (wellFormed : grammar.WellFormed) :
    fill store grammar words = some (Chart.fill grammar words) ∧
      Tidy grammar words (Chart.fill grammar words) := by
  have known := wellFormed.symbolsKnown
  have filledWords : (List.range words.size).foldlM (fillWord store)
        (empty grammar words) = some ((List.range words.size).foldl
          (fun chart position => chart.fillSpan ⟨position, position + 1⟩)
          (empty grammar words)) ∧
      Tidy grammar words ((List.range words.size).foldl
        (fun chart position => chart.fillSpan ⟨position, position + 1⟩)
        (empty grammar words)) :=
    foldlM_eq_some (fun position member chart tidy =>
      fillWord_eq stores wellFormed tidy (List.mem_range.mp member))
      (Tidy.empty grammar words)
  rw [fill, fill_eq_foldl, filledWords.1, Option.bind_eq_bind, Option.bind_some]
  refine foldlM_eq_some (fun length member chart tidy => ?_) filledWords.2
  have long := List.mem_range'_1.mp member
  have last : difference? words.size length = some (words.size - length) :=
    if_pos (by omega)
  have starts : words.size - length + 1 = words.size + 1 - length := by omega
  rw [last, Option.bind_eq_bind, Option.bind_some, starts]
  refine foldlM_eq_some (fun start member chart tidy => ?_) tidy
  have := List.mem_range.mp member
  exact fillLonger_eq stores known tidy long.1 (by omega)

end Filling

end Guarded

/-- The step works on a span of the sentence that is not empty. -/
def FillStep.Fits (count : Nat) : FillStep → Prop
  | .scan position => position < count
  | .combine span => span.start < span.stop ∧ span.stop ≤ count
  | .closeUnits span => span.start < span.stop ∧ span.stop ≤ count

theorem fits_of_mem_fillSteps {count : Nat} {step : FillStep}
    (member : step ∈ fillSteps count) : step.Fits count := by
  rw [fillSteps_eq] at member
  obtain ⟨span, spanMember, stepMember⟩ := List.mem_flatMap.mp member
  obtain ⟨proper, within⟩ := mem_fillSpans.mp spanMember
  simp only [openStep, List.mem_cons, List.not_mem_nil, or_false] at stepMember
  rcases stepMember with rfl | rfl
  · split
    · exact Nat.lt_of_lt_of_le proper within
    · exact ⟨proper, within⟩
  · exact ⟨proper, within⟩

theorem Tidy.step {grammar : Grammar} {words : Array String} {chart : Chart}
    {next : FillStep} (tidy : Tidy grammar words chart)
    (wellFormed : grammar.WellFormed) (fits : next.Fits words.size) :
    Tidy grammar words (chart.step next) := by
  have stores : ∀ number < grammar.cellBound words.size,
      some number = some number := fun _ _ => rfl
  have known := wellFormed.symbolsKnown
  cases next with
  | scan position => exact (Guarded.scan_eq stores wellFormed tidy fits).2
  | combine span =>
      exact (Guarded.combine_eq stores known fits.1 fits.2 tidy).2
  | closeUnits span =>
      exact (Guarded.closeUnits_eq stores known fits.1 fits.2 tidy).2

/-- A chart is tidy after any steps of its filling. -/
theorem tidy_of_isPrefix {grammar : Grammar} {words : Array String}
    (wellFormed : grammar.WellFormed) {steps : List FillStep}
    (reached : steps <+: fillSteps words.size) :
    Tidy grammar words (steps.foldl Chart.step (empty grammar words)) :=
  List.foldlRecOn _ _ (Tidy.empty grammar words)
    fun _ tidy _ member => tidy.step wellFormed
      (fits_of_mem_fillSteps (reached.subset member))

end Chart

end Constituency
