import Constituency.Proofs.Chart.Opening
import Constituency.Proofs.Chart.Sorting
import Constituency.Proofs.Chart.UnitClosure
import Constituency.Proofs.Span

/-!
# Exact spans

A span is exact in a chart if every nonterminal lists there just the derivations
that can be built from the cells of the chart, in order.  Opening the cells of a
vacant span and closing it under unit productions makes it exact, although unit
derivations are found in several passes and may point to cells opened after
their own.  It stays exact as long as only spans outside of it are filled.
-/

namespace Constituency

namespace Chart

variable {chart later : Chart} {span filled : Span} {symbol : Nat}
variable {derivation : Derivation} {rhs children : List Nat}

/-- The span has no cells. -/
def Vacant (chart : Chart) (span : Span) : Prop :=
  ∀ symbol, chart.Admits span symbol → chart.cellAt? span symbol = none

/-- Every nonterminal lists on the span just the derivations that can be built
from cells of the chart, in order. -/
structure Exact (chart : Chart) (span : Span) : Prop where
  pairwise : ∀ symbol, chart.Admits span symbol →
    (chart.derivationsAt span symbol).Pairwise chart.Earlier
  mem_iff : ∀ symbol derivation, chart.Admits span symbol →
    (derivation ∈ chart.derivationsAt span symbol ↔
      chart.Builds span symbol derivation)

theorem Tiled.splitPoints_eq (tiled : Tiled chart.cellAt? rhs filled children)
    (indexed : chart.Indexed) (extended : chart.Extends later span)
    (within : filled.stop ≤ chart.words.size)
    (known : ∀ symbol ∈ rhs, symbol < chart.grammar.symbolCount) :
    later.splitPoints children = chart.splitPoints children := by
  induction tiled with
  | nil => rfl
  | @cons start middle stop cell symbol rest cells proper found below ih =>
      have room := below.length_le
      dsimp only at within room
      have admitted : chart.Admits ⟨start, middle⟩ symbol :=
        admits_of_within (Nat.le_of_lt proper) (by dsimp only; omega)
          (known symbol (by simp))
      have kept := extended.cellAt?_kept admitted found
      rw [splitPoints, splitPoints, List.map_cons, List.map_cons,
        indexed.cellStop_eq admitted found, extended.indexed.cellStop_eq
        (extended.admits_iff.mpr admitted) kept]
      congr 1
      exact ih within fun symbol member => known symbol (by simp [member])

namespace Builds

theorem known (builds : chart.Builds span symbol derivation)
    (wellFormed : chart.grammar.WellFormed) :
    symbol < chart.grammar.symbolCount := by
  cases builds with
  | lexical numbered => exact (wellFormed.known numbered).1
  | syntactic numbered => exact (wellFormed.known numbered).1

theorem splitPoints_eq (builds : chart.Builds filled symbol derivation)
    (indexed : chart.Indexed) (wellFormed : chart.grammar.WellFormed)
    (extended : chart.Extends later span)
    (within : filled.stop ≤ chart.words.size) :
    later.splitPoints derivation.children =
      chart.splitPoints derivation.children := by
  cases builds with
  | lexical => rfl
  | syntactic numbered nonempty tiled =>
      exact tiled.splitPoints_eq indexed extended within
        (wellFormed.known numbered).2

/-- What can be built on a span can still be built if the cells within it are still
found, where of the cells on the whole span only unit derivations depend. -/
theorem mono (builds : chart.Builds span symbol derivation)
    (grammarEq : later.grammar = chart.grammar)
    (wordsEq : later.words = chart.words)
    (wellFormed : chart.grammar.WellFormed)
    (kept : ∀ (start stop cell symbol : Nat), span.start ≤ start →
      start < stop → stop ≤ span.stop →
      (⟨start, stop⟩ = span → chart.IsUnit derivation) →
      symbol < chart.grammar.symbolCount →
      chart.cellAt? ⟨start, stop⟩ symbol = some cell →
      later.cellAt? ⟨start, stop⟩ symbol = some cell) :
    later.Builds span symbol derivation := by
  cases builds with
  | lexical numbered listed placed single =>
      rw [← grammarEq] at numbered listed
      rw [← wordsEq] at placed
      exact .lexical numbered listed placed single
  | @syntactic production rhs children numbered nonempty tiled =>
      refine .syntactic (grammarEq ▸ numbered) nonempty (tiled.mono ?_)
      intro start stop cell target startLe proper stopLe room member
      refine kept start stop cell target startLe proper stopLe ?_
        ((wellFormed.known numbered).2 target member)
      rintro rfl
      simp only [Span.length] at room
      rcases rhs with _ | ⟨first, _ | ⟨second, rest⟩⟩
      · exact absurd rfl nonempty
      · exact ⟨symbol, first, numbered⟩
      · -- Two or more parts leave no room for one of them on the whole span.
        simp only [List.length_cons] at room
        omega

theorem extend (builds : chart.Builds filled symbol derivation)
    (wellFormed : chart.grammar.WellFormed)
    (extended : chart.Extends later span)
    (within : filled.stop ≤ chart.words.size) :
    later.Builds filled symbol derivation := by
  refine builds.mono extended.grammar_eq extended.words_eq wellFormed ?_
  intro start stop cell target _ proper stopLe _ known
  exact extended.cellAt?_kept (admits_of_within (Nat.le_of_lt proper)
    (Nat.le_trans stopLe within) known)

end Builds

/-- What can be built on a span does not change if the cells within it do not
change, except that more unit derivations can be built from new cells on the
whole span. -/
theorem builds_iff (extended : chart.Extends later span)
    (wellFormed : chart.grammar.WellFormed)
    (within : filled.stop ≤ chart.words.size)
    (apart : span.Within filled → filled = span ∧ ¬ chart.IsUnit derivation) :
    later.Builds filled symbol derivation ↔
      chart.Builds filled symbol derivation := by
  have agree : ∀ (start stop symbol : Nat), filled.start ≤ start →
      start < stop → stop ≤ filled.stop →
      (⟨start, stop⟩ = filled → chart.IsUnit derivation) →
      symbol < chart.grammar.symbolCount →
      later.cellAt? ⟨start, stop⟩ symbol =
        chart.cellAt? ⟨start, stop⟩ symbol := by
    intro start stop symbol startLe proper stopLe unit known
    refine extended.cellAt?_elsewhere (admits_of_within (Nat.le_of_lt proper)
      (Nat.le_trans stopLe within) known) ?_
    rintro rfl
    obtain ⟨same, notUnit⟩ := apart ⟨startLe, stopLe⟩
    exact notUnit (unit same.symm)
  constructor
  · intro builds
    refine builds.mono extended.grammar_eq.symm extended.words_eq.symm
      (extended.grammar_eq ▸ wellFormed) ?_
    intro start stop cell symbol startLe proper stopLe unit known
    rw [extended.grammar_eq] at known
    simp only [IsUnit, extended.grammar_eq] at unit
    rw [agree start stop symbol startLe proper stopLe unit known]
    exact id
  · intro builds
    refine builds.mono extended.grammar_eq extended.words_eq wellFormed ?_
    intro start stop cell symbol startLe proper stopLe unit known
    rw [agree start stop symbol startLe proper stopLe unit known]
    exact id

theorem builds_iff_of_cellAt?_eq (wellFormed : chart.grammar.WellFormed)
    (grammarEq : later.grammar = chart.grammar)
    (wordsEq : later.words = chart.words)
    (cells : ∀ span symbol,
      later.cellAt? span symbol = chart.cellAt? span symbol) :
    later.Builds span symbol derivation ↔
      chart.Builds span symbol derivation := by
  constructor
  · intro builds
    exact builds.mono grammarEq.symm wordsEq.symm (grammarEq ▸ wellFormed)
      fun _ _ _ _ _ _ _ _ _ found => (cells ..).symm.trans found
  · intro builds
    exact builds.mono grammarEq wordsEq wellFormed
      fun _ _ _ _ _ _ _ _ _ found => (cells ..).trans found

/-- An exact span stays exact while another span outside of it is filled. -/
theorem Exact.extend (exact : chart.Exact filled)
    (indexed : chart.Indexed) (wellFormed : chart.grammar.WellFormed)
    (extended : chart.Extends later span)
    (within : filled.stop ≤ chart.words.size)
    (outside : ¬ span.Within filled) : later.Exact filled := by
  have apart : filled ≠ span := by
    rintro rfl
    exact outside ⟨Nat.le_refl _, Nat.le_refl _⟩
  refine ⟨fun symbol admitted => ?_, fun symbol derivation admitted => ?_⟩
  · rw [extended.admits_iff] at admitted
    rw [extended.derivationsAt_elsewhere admitted apart]
    apply (exact.pairwise symbol admitted).imp_of_mem
    intro first second member member' earlier
    have first := (exact.mem_iff symbol _ admitted).mp member
    have second := (exact.mem_iff symbol _ admitted).mp member'
    rw [Earlier, first.splitPoints_eq indexed wellFormed extended within,
      second.splitPoints_eq indexed wellFormed extended within]
    exact earlier
  · rw [extended.admits_iff] at admitted
    rw [extended.derivationsAt_elsewhere admitted apart,
      exact.mem_iff symbol derivation admitted, builds_iff extended wellFormed
      within fun inside => absurd inside outside]

theorem UnitExtension.builds_of_mem {units : List (Nat × Derivation)}
    (added : chart.UnitExtension later span units) (indexed : chart.Indexed)
    (proper : span.start < span.stop) (member : (symbol, derivation) ∈ units) :
    later.Builds span symbol derivation ∧ later.IsUnit derivation := by
  obtain ⟨production, target, child, found, childFound, rfl⟩ :=
    added.derived member
  rw [← (added.extended indexed).grammar_eq] at found
  exact ⟨.syntactic found (by simp) (.cons proper childFound (.nil _)),
    symbol, target, found⟩

section CloseUnits

variable {entries units : List (Nat × Derivation)} {closed : Chart}
variable (indexed : chart.Indexed) (wellFormed : chart.grammar.WellFormed)
variable (proper : span.start < span.stop)
variable (within : span.stop ≤ chart.words.size) (vacant : chart.Vacant span)
variable (opens : chart.Opens span entries)
variable (added : (chart.addAll span entries).UnitExtension closed span units)
variable (unitsClosed : closed.UnitsClosed span)

include indexed opens added in
private theorem extends_closed : chart.Extends closed span :=
  have opened := extends_addAll indexed opens.admits
  opened.trans (added.extended opened.indexed)

include indexed opens added vacant in
private theorem derivationsAt_closed (admitted : chart.Admits span symbol) :
    closed.derivationsAt span symbol =
      entriesFor symbol entries ++ entriesFor symbol units := by
  have opened := extends_addAll indexed opens.admits
  rw [added.derivationsAt_eq opened.indexed (opened.admits_iff.mpr admitted),
    derivationsAt_addAll indexed opens.admits admitted,
    derivationsAt_of_cellAt?_eq_none (vacant symbol admitted), List.nil_append]

include indexed wellFormed within opens added in
private theorem builds_of_mem_entries (member : (symbol, derivation) ∈ entries) :
    closed.Builds span symbol derivation ∧ ¬ closed.IsUnit derivation := by
  have extended := extends_closed indexed opens added
  obtain ⟨builds, notUnit⟩ := (opens.mem_iff symbol derivation).mp member
  refine ⟨(builds_iff extended wellFormed within fun _ => ⟨rfl, notUnit⟩).mpr
    builds, ?_⟩
  rwa [IsUnit, extended.grammar_eq]

include indexed wellFormed proper within vacant opens added unitsClosed in
private theorem mem_closed_iff (admitted : chart.Admits span symbol) :
    derivation ∈ closed.derivationsAt span symbol ↔
      closed.Builds span symbol derivation := by
  have extended := extends_closed indexed opens added
  constructor
  · rw [derivationsAt_closed indexed vacant opens added admitted,
      List.mem_append, mem_entriesFor, mem_entriesFor]
    rintro (member | member)
    · exact (builds_of_mem_entries indexed wellFormed within opens added
        member).1
    · exact (added.builds_of_mem (extends_addAll indexed opens.admits).indexed
        proper member).1
  · intro builds
    -- Unit derivations are listed as the span is closed under them, and all
    -- others since it was opened.
    by_cases unit : closed.IsUnit derivation
    · obtain ⟨lhs, target, unitFound⟩ := unit
      cases builds with
      | lexical numbered => simp [numbered] at unitFound
      | syntactic numbered nonempty tiled =>
          obtain ⟨rfl, rfl⟩ := Grammar.numbered_inj numbered unitFound
          rcases tiled with _ | ⟨_, found, below⟩
          cases below
          exact unitsClosed _ numbered found
    · rw [derivationsAt_closed indexed vacant opens added admitted]
      refine List.mem_append_left _ (mem_entriesFor.mpr ?_)
      rw [opens.mem_iff]
      rw [IsUnit, extended.grammar_eq] at unit
      exact ⟨(builds_iff extended wellFormed within
        fun _ => ⟨rfl, unit⟩).mp builds, unit⟩

include indexed wellFormed proper within vacant opens added in
private theorem pairwise_closed (admitted : chart.Admits span symbol) :
    (closed.derivationsAt span symbol).Pairwise fun first second =>
      first.production = second.production →
      closed.splitPoints first.children < closed.splitPoints second.children := by
  have extended := extends_closed indexed opens added
  rw [derivationsAt_closed indexed vacant opens added admitted]
  refine List.pairwise_append.mpr ⟨?_, ?_, ?_⟩
  · apply (pairwise_entriesFor opens.pairwise symbol).imp_of_mem
    intro first second member member' earlier same
    obtain ⟨builds, _⟩ := (opens.mem_iff ..).mp (mem_entriesFor.mp member)
    obtain ⟨builds', _⟩ := (opens.mem_iff ..).mp (mem_entriesFor.mp member')
    rw [builds.splitPoints_eq indexed wellFormed extended within,
      builds'.splitPoints_eq indexed wellFormed extended within]
    rcases earlier with lower | ⟨_, shorter⟩
    · omega
    · exact shorter
  · exact (added.pairwise_entriesFor symbol).imp
      fun apart same => absurd same apart
  · intro first member second member' same
    obtain ⟨_, notUnit⟩ := builds_of_mem_entries indexed wellFormed within opens
      added (mem_entriesFor.mp member)
    obtain ⟨_, unit⟩ := added.builds_of_mem
      (extends_addAll indexed opens.admits).indexed proper
      (mem_entriesFor.mp member')
    rw [IsUnit, same] at notUnit
    exact absurd unit notUnit

end CloseUnits

/-- Opening the cells of a vacant span and closing it under unit productions
makes it exact. -/
theorem exact_closeUnits {entries : List (Nat × Derivation)}
    (indexed : chart.Indexed) (wellFormed : chart.grammar.WellFormed)
    (proper : span.start < span.stop) (within : span.stop ≤ chart.words.size)
    (vacant : chart.Vacant span) (opens : chart.Opens span entries) :
    chart.Extends ((chart.addAll span entries).closeUnits span) span ∧
      ((chart.addAll span entries).closeUnits span).Exact span := by
  have ordered := Nat.le_of_lt proper
  have opened := extends_addAll indexed opens.admits
  obtain ⟨_, closed, units, _, _, closedEq, added, unitsClosed⟩ :=
    exists_unitExtension_closed opened.indexed
      (opened.grammar_eq ▸ wellFormed.symbolsKnown) ordered
      (opened.words_eq ▸ within)
  have extended := extends_closed indexed opens added
  have closedWithin : span.stop ≤ closed.words.size :=
    extended.words_eq ▸ within
  have sorted := extends_sortCells extended.indexed ordered closedWithin
  have sortedExtends := extended.trans sorted
  have cells := cellAt?_sortCells extended.indexed ordered closedWithin
  rw [closeUnits, closedEq]
  refine ⟨sortedExtends, fun symbol admitted => ?_,
    fun symbol derivation admitted => ?_⟩
  · have admitted := sortedExtends.admits_iff.mp admitted
    have closedAdmitted := extended.admits_iff.mpr admitted
    have mem_iff : ∀ derivation, derivation ∈ closed.derivationsAt span symbol ↔
        closed.Builds span symbol derivation := fun _ =>
      mem_closed_iff indexed wellFormed proper within vacant opens added
        unitsClosed admitted
    rw [derivationsAt_sortCells extended.indexed ordered closedWithin
      closedAdmitted]
    refine (pairwise_sortByProduction (pairwise_closed indexed wellFormed proper
      within vacant opens added admitted)).imp_of_mem ?_
    intro first second member member' earlier
    rw [mem_sortByProduction, mem_iff] at member member'
    have closedWellFormed := extended.grammar_eq ▸ wellFormed
    rw [Earlier, member.splitPoints_eq extended.indexed closedWellFormed sorted
      closedWithin, member'.splitPoints_eq extended.indexed closedWellFormed
      sorted closedWithin]
    exact earlier
  · have admitted := sortedExtends.admits_iff.mp admitted
    rw [derivationsAt_sortCells extended.indexed ordered closedWithin
      (extended.admits_iff.mpr admitted), mem_sortByProduction,
      mem_closed_iff indexed wellFormed proper within vacant opens added
      unitsClosed admitted]
    exact (builds_iff_of_cellAt?_eq (extended.grammar_eq ▸ wellFormed)
      sorted.grammar_eq sorted.words_eq cells).symm

end Chart

end Constituency
