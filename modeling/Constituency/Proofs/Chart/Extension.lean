import Constituency.Proofs.Chart.Arena

/-!
# Extending a chart on one span

Every step that fills a chart works on a single span: it adds derivations to the
cells of that span, and may put them into another order.  What lies on other
spans stays as it is, and a cell keeps its number.
-/

namespace Constituency

namespace Chart

variable {chart later final : Chart} {span other : Span}
variable {symbol otherSymbol number : Nat}

/-- The later chart has all cells of the earlier one, and differs from it on one
span at most. -/
structure Extends (chart later : Chart) (span : Span) : Prop where
  grammar_eq : later.grammar = chart.grammar
  words_eq : later.words = chart.words
  indexed : later.Indexed
  cellAt?_kept : ∀ {other : Span} {symbol number : Nat},
    chart.Admits other symbol → chart.cellAt? other symbol = some number →
    later.cellAt? other symbol = some number
  cellAt?_elsewhere : ∀ {other : Span} {symbol : Nat},
    chart.Admits other symbol → other ≠ span →
    later.cellAt? other symbol = chart.cellAt? other symbol
  derivationsAt_elsewhere : ∀ {other : Span} {symbol : Nat},
    chart.Admits other symbol → other ≠ span →
    later.derivationsAt other symbol = chart.derivationsAt other symbol

namespace Extends

theorem refl (indexed : chart.Indexed) (span : Span) :
    chart.Extends chart span :=
  ⟨rfl, rfl, indexed, fun _ found => found, fun _ _ => rfl, fun _ _ => rfl⟩

theorem admits_iff (extended : chart.Extends later span) :
    later.Admits other symbol ↔ chart.Admits other symbol := by
  constructor
  · rintro ⟨startLe, stopLe, symbolLt⟩
    rw [extended.words_eq] at startLe stopLe
    rw [extended.grammar_eq] at symbolLt
    exact ⟨startLe, stopLe, symbolLt⟩
  · rintro ⟨startLe, stopLe, symbolLt⟩
    rw [← extended.words_eq] at startLe stopLe
    rw [← extended.grammar_eq] at symbolLt
    exact ⟨startLe, stopLe, symbolLt⟩

theorem trans (first : chart.Extends later span)
    (second : later.Extends final span) : chart.Extends final span where
  grammar_eq := second.grammar_eq.trans first.grammar_eq
  words_eq := second.words_eq.trans first.words_eq
  indexed := second.indexed
  cellAt?_kept admitted found :=
    second.cellAt?_kept (first.admits_iff.mpr admitted)
      (first.cellAt?_kept admitted found)
  cellAt?_elsewhere admitted apart :=
    (second.cellAt?_elsewhere (first.admits_iff.mpr admitted) apart).trans
      (first.cellAt?_elsewhere admitted apart)
  derivationsAt_elsewhere admitted apart :=
    (second.derivationsAt_elsewhere (first.admits_iff.mpr admitted) apart).trans
      (first.derivationsAt_elsewhere admitted apart)

/-- The cells of all other spans are the same, and have the same numbers. -/
theorem getElem?_elsewhere (extended : chart.Extends later span)
    (indexed : chart.Indexed) {cell : Cell} (apart : cell.span ≠ span) :
    later.cells[number]? = some cell ↔ chart.cells[number]? = some cell := by
  constructor
  · intro opened
    have admitted := extended.admits_iff.mp (extended.indexed.admits opened)
    exact extended.indexed.getElem?_of_same indexed admitted
      (extended.cellAt?_elsewhere admitted apart)
      (extended.derivationsAt_elsewhere admitted apart) opened
  · intro opened
    have admitted := indexed.admits opened
    exact indexed.getElem?_of_same extended.indexed
      (extended.admits_iff.mpr admitted)
      (extended.cellAt?_elsewhere admitted apart).symm
      (extended.derivationsAt_elsewhere admitted apart).symm opened

end Extends

theorem extends_changeCell (indexed : chart.Indexed)
    {change : List Derivation → List Derivation}
    (nonempty : ∀ derivations, derivations ≠ [] → change derivations ≠ [])
    (admitted : chart.Admits span symbol)
    (found : chart.cellAt? span symbol = some number) :
    chart.Extends (chart.changeCell number change) span where
  grammar_eq := rfl
  words_eq := rfl
  indexed := indexed_changeCell indexed number nonempty
  cellAt?_kept _ found := found
  cellAt?_elsewhere _ _ := rfl
  derivationsAt_elsewhere otherAdmitted apart := by
    rw [derivationsAt_changeCell indexed admitted found otherAdmitted,
      if_neg fun same => apart same.1]

theorem extends_openCell (indexed : chart.Indexed)
    (admitted : chart.Admits span symbol)
    (missing : chart.cellAt? span symbol = none) (derivation : Derivation) :
    chart.Extends (chart.openCell span symbol derivation) span where
  grammar_eq := rfl
  words_eq := rfl
  indexed := indexed_openCell indexed admitted missing derivation
  cellAt?_kept otherAdmitted found := by
    rw [cellAt?_openCell indexed admitted otherAdmitted, if_neg, found]
    rintro ⟨rfl, rfl⟩
    simp [missing] at found
  cellAt?_elsewhere otherAdmitted apart := by
    rw [cellAt?_openCell indexed admitted otherAdmitted,
      if_neg fun same => apart same.1]
  derivationsAt_elsewhere otherAdmitted apart := by
    rw [derivationsAt_openCell indexed admitted otherAdmitted,
      if_neg fun same => apart same.1]

theorem add_eq_changeCell (found : chart.cellAt? span symbol = some number)
    (derivation : Derivation) :
    chart.add span symbol derivation =
      chart.changeCell number (· ++ [derivation]) := by
  have push : (fun cell : Cell => cell.push derivation) =
      (fun cell => cell.changeDerivations (· ++ [derivation])) := by
    funext cell
    rw [Cell.push, Cell.changeDerivations, ← Array.toList_push,
      Array.toArray_toList]
  simp only [add, found, changeCell, push]

theorem add_eq_openCell (missing : chart.cellAt? span symbol = none)
    (derivation : Derivation) :
    chart.add span symbol derivation =
      chart.openCell span symbol derivation := by
  simp only [add, missing, openCell]

@[simp]
theorem grammar_add (chart : Chart) (span : Span) (symbol : Nat)
    (derivation : Derivation) :
    (chart.add span symbol derivation).grammar = chart.grammar := by
  unfold add
  split <;> rfl

@[simp]
theorem words_add (chart : Chart) (span : Span) (symbol : Nat)
    (derivation : Derivation) :
    (chart.add span symbol derivation).words = chart.words := by
  unfold add
  split <;> rfl

theorem extends_add (indexed : chart.Indexed)
    (admitted : chart.Admits span symbol) (derivation : Derivation) :
    chart.Extends (chart.add span symbol derivation) span := by
  cases found : chart.cellAt? span symbol with
  | none =>
      rw [add_eq_openCell found]
      exact extends_openCell indexed admitted found derivation
  | some number =>
      rw [add_eq_changeCell found]
      exact extends_changeCell indexed (by simp) admitted found

theorem derivationsAt_add (indexed : chart.Indexed)
    (admitted : chart.Admits span symbol)
    (otherAdmitted : chart.Admits other otherSymbol)
    (derivation : Derivation) :
    (chart.add span symbol derivation).derivationsAt other otherSymbol =
      if other = span ∧ otherSymbol = symbol then
        chart.derivationsAt span symbol ++ [derivation]
      else
        chart.derivationsAt other otherSymbol := by
  cases found : chart.cellAt? span symbol with
  | none =>
      rw [add_eq_openCell found,
        derivationsAt_openCell indexed admitted otherAdmitted,
        derivationsAt_of_cellAt?_eq_none found, List.nil_append]
  | some number =>
      rw [add_eq_changeCell found,
        derivationsAt_changeCell indexed admitted found otherAdmitted]

theorem isSome_cellAt?_add (indexed : chart.Indexed)
    (admitted : chart.Admits span symbol)
    (otherAdmitted : chart.Admits other otherSymbol)
    {derivation : Derivation} :
    ((chart.add span symbol derivation).cellAt? other otherSymbol).isSome ↔
      (other = span ∧ otherSymbol = symbol) ∨
        (chart.cellAt? other otherSymbol).isSome := by
  have extended := extends_add indexed admitted derivation
  rw [extended.indexed.cellAt?_isSome_iff
    (extended.admits_iff.mpr otherAdmitted),
    derivationsAt_add indexed admitted otherAdmitted,
    indexed.cellAt?_isSome_iff otherAdmitted]
  split
  · rename_i same
    simp [same]
  · rename_i apart
    simp [apart]

/-- The chart with several derivations added on a span, each to the nonterminal
it comes with. -/
def addAll (chart : Chart) (span : Span)
    (entries : List (Nat × Derivation)) : Chart :=
  entries.foldl (fun chart entry => chart.add span entry.1 entry.2) chart

@[simp]
theorem addAll_nil (chart : Chart) (span : Span) :
    chart.addAll span [] = chart :=
  rfl

@[simp]
theorem addAll_cons (chart : Chart) (span : Span) (entry : Nat × Derivation)
    (rest : List (Nat × Derivation)) :
    chart.addAll span (entry :: rest) =
      (chart.add span entry.1 entry.2).addAll span rest :=
  rfl

theorem addAll_append (chart : Chart) (span : Span)
    (first second : List (Nat × Derivation)) :
    chart.addAll span (first ++ second) =
      (chart.addAll span first).addAll span second :=
  List.foldl_append

/-- The derivations that come with a nonterminal. -/
def entriesFor (symbol : Nat) (entries : List (Nat × Derivation)) :
    List Derivation :=
  entries.filterMap fun entry =>
    if entry.1 = symbol then some entry.2 else none

@[simp]
theorem mem_entriesFor {entries : List (Nat × Derivation)}
    {derivation : Derivation} :
    derivation ∈ entriesFor symbol entries ↔ (symbol, derivation) ∈ entries := by
  simp only [entriesFor, List.mem_filterMap, Option.ite_none_right_eq_some,
    Option.some.injEq, Prod.exists]
  constructor
  · rintro ⟨_, _, member, rfl, rfl⟩
    exact member
  · intro member
    exact ⟨symbol, derivation, member, rfl, rfl⟩

theorem pairwise_entriesFor {related : Derivation → Derivation → Prop}
    {entries : List (Nat × Derivation)}
    (given : entries.Pairwise fun first second => related first.2 second.2)
    (symbol : Nat) : (entriesFor symbol entries).Pairwise related := by
  apply given.filterMap _
  intro first second ordered derivation kept derivation' kept'
  simp only [Option.ite_none_right_eq_some, Option.some.injEq] at kept kept'
  rwa [← kept.2, ← kept'.2]

theorem extends_addAll (indexed : chart.Indexed)
    {entries : List (Nat × Derivation)}
    (admitted : ∀ entry ∈ entries, chart.Admits span entry.1) :
    chart.Extends (chart.addAll span entries) span := by
  induction entries generalizing chart with
  | nil => exact .refl indexed span
  | cons entry rest ih =>
      have first := extends_add indexed (admitted entry (by simp)) entry.2
      refine first.trans (ih first.indexed fun entry member => ?_)
      exact first.admits_iff.mpr (admitted entry (by simp [member]))

theorem derivationsAt_addAll (indexed : chart.Indexed)
    {entries : List (Nat × Derivation)}
    (admitted : ∀ entry ∈ entries, chart.Admits span entry.1)
    (symbolAdmitted : chart.Admits span symbol) :
    (chart.addAll span entries).derivationsAt span symbol =
      chart.derivationsAt span symbol ++ entriesFor symbol entries := by
  induction entries generalizing chart with
  | nil => simp [entriesFor]
  | cons entry rest ih =>
      have first := extends_add indexed (admitted entry (by simp)) entry.2
      rw [addAll_cons, ih first.indexed
        (fun entry member =>
          first.admits_iff.mpr (admitted entry (by simp [member])))
        (first.admits_iff.mpr symbolAdmitted),
        derivationsAt_add indexed (admitted entry (by simp)) symbolAdmitted]
      by_cases same : entry.1 = symbol
      · simp [entriesFor, same]
      · simp [entriesFor, same, Ne.symm same]

end Chart

end Constituency
