import Constituency.Chart.Fill
import Constituency.Proofs.Chart.Extension
import Constituency.Proofs.Grammar.WellFormed
import Mathlib.Data.List.Nodup
import Mathlib.Logic.Relation

/-!
# Unit productions within a span

A pass over a span adds the unit derivations it finds missing, and only these.
As each unit production has at most one child on a span, it adds at most one
derivation there, however many passes are made.  Every pass but the last adds
one at least, so the passes come to an end, even if unit productions form a cycle,
and then no unit derivation is missing.
-/

namespace Constituency

namespace Grammar

/-- A unit production has the first nonterminal on the left and the second one on
the right. -/
def UnitArrow (grammar : Grammar) (symbol target : Nat) : Prop :=
  ∃ production : Nat, grammar.numbered[production]? = some ⟨symbol, [target]⟩

def unitProductions (grammar : Grammar) : List Nat :=
  (List.range grammar.numbered.size).filter fun production =>
    (grammar.numbered[production]?.bind (·.unitTarget?)).isSome

theorem mem_unitProductions {grammar : Grammar} {production lhs target : Nat}
    (found : grammar.numbered[production]? = some ⟨lhs, [target]⟩) :
    production ∈ grammar.unitProductions := by
  refine List.mem_filter.mpr ⟨List.mem_range.mpr ?_, ?_⟩
  · exact (Array.getElem?_eq_some_iff.mp found).1
  · rw [found]
    rfl

theorem length_unitProductions_le (grammar : Grammar) :
    grammar.unitProductions.length ≤ grammar.numbered.size := by
  have shorter := List.length_filter_le
    (fun production : Nat =>
      (grammar.numbered[production]?.bind (·.unitTarget?)).isSome)
    (List.range grammar.numbered.size)
  rwa [List.length_range] at shorter

end Grammar

namespace Chart

/-- The derivation by the production, if it is a unit production whose child has
a cell on the span, is listed there. -/
def UnitListed (chart : Chart) (span : Span) (production : Nat) : Prop :=
  ∀ {lhs target child : Nat},
    chart.grammar.numbered[production]? = some ⟨lhs, [target]⟩ →
    chart.cellAt? span target = some child →
    ⟨production, [child]⟩ ∈ chart.derivationsAt span lhs

/-- The later chart has the given unit derivations in addition, and each of them
was missing. -/
structure UnitExtension (chart later : Chart) (span : Span)
    (entries : List (Nat × Derivation)) : Prop where
  later_eq : later = chart.addAll span entries
  admits : ∀ entry ∈ entries, chart.Admits span entry.1
  derived : ∀ {symbol : Nat} {derivation : Derivation},
    (symbol, derivation) ∈ entries → ∃ production target child,
      chart.grammar.numbered[production]? = some ⟨symbol, [target]⟩ ∧
      later.cellAt? span target = some child ∧
      derivation = ⟨production, [child]⟩
  fresh : ∀ {symbol : Nat} {derivation : Derivation},
    (symbol, derivation) ∈ entries →
    derivation ∉ chart.derivationsAt span symbol
  nodup : entries.Nodup
  /-- New cells are opened only where unit productions lead to cells that were there
  before. -/
  reached : ∀ {symbol : Nat}, chart.Admits span symbol →
    (later.cellAt? span symbol).isSome → ∃ target,
      Relation.ReflTransGen chart.grammar.UnitArrow symbol target ∧
      target < chart.grammar.symbolCount ∧ (chart.cellAt? span target).isSome

/-- A unit production has one derivation on a span at most. -/
private theorem unit_unique {chart : Chart} {find : Nat → Option Nat}
    {production lhs lhs' target target' child child' : Nat}
    (found : chart.grammar.numbered[production]? = some ⟨lhs, [target]⟩)
    (found' : chart.grammar.numbered[production]? = some ⟨lhs', [target']⟩)
    (childFound : find target = some child)
    (childFound' : find target' = some child') : lhs = lhs' ∧ child = child' := by
  obtain ⟨lhsEq, targets⟩ := Grammar.numbered_inj found found'
  injection targets with sameTarget
  subst target'
  rw [childFound] at childFound'
  exact ⟨lhsEq, Option.some.inj childFound'⟩

namespace UnitExtension

variable {chart later final : Chart} {span : Span}
variable {entries laterEntries : List (Nat × Derivation)}

theorem refl (chart : Chart) (span : Span) :
    chart.UnitExtension chart span [] :=
  ⟨rfl, by simp, by simp, by simp, .nil,
    fun admitted isSome => ⟨_, .refl, admitted.symbol_lt, isSome⟩⟩

theorem extended (units : chart.UnitExtension later span entries)
    (indexed : chart.Indexed) : chart.Extends later span :=
  units.later_eq ▸ extends_addAll indexed units.admits

theorem derivationsAt_eq (units : chart.UnitExtension later span entries)
    (indexed : chart.Indexed) {symbol : Nat}
    (admitted : chart.Admits span symbol) :
    later.derivationsAt span symbol =
      chart.derivationsAt span symbol ++ entriesFor symbol entries :=
  units.later_eq ▸ derivationsAt_addAll indexed units.admits admitted

theorem trans (indexed : chart.Indexed)
    (known : chart.grammar.SymbolsKnown)
    (first : chart.UnitExtension later span entries)
    (second : later.UnitExtension final span laterEntries) :
    chart.UnitExtension final span (entries ++ laterEntries) := by
  have firstExtends := first.extended indexed
  have secondExtends := second.extended firstExtends.indexed
  have admits : ∀ entry ∈ laterEntries, chart.Admits span entry.1 :=
    fun entry member => firstExtends.admits_iff.mp (second.admits entry member)
  refine ⟨?_, ?_, ?_, ?_, ?_, ?_⟩
  · rw [second.later_eq, first.later_eq, addAll_append]
  · intro entry member
    rcases List.mem_append.mp member with earlier | later
    · exact first.admits entry earlier
    · exact admits entry later
  · intro symbol derivation member
    rcases List.mem_append.mp member with earlier | later
    · obtain ⟨production, target, child, found, childFound, rfl⟩ :=
        first.derived earlier
      have symbolAdmitted := first.admits _ earlier
      have targetAdmitted : chart.Admits span target :=
        ⟨symbolAdmitted.start_le, symbolAdmitted.stop_le,
          (known.of_getElem? found).2 target (by simp)⟩
      exact ⟨production, target, child, found, secondExtends.cellAt?_kept
        (firstExtends.admits_iff.mpr targetAdmitted) childFound, rfl⟩
    · obtain ⟨production, target, child, found, rest⟩ := second.derived later
      rw [firstExtends.grammar_eq] at found
      exact ⟨production, target, child, found, rest⟩
  · intro symbol derivation member listed
    rcases List.mem_append.mp member with earlier | later
    · exact first.fresh earlier listed
    · apply second.fresh later
      rw [first.derivationsAt_eq indexed (admits _ later)]
      exact List.mem_append_left _ listed
  · refine List.nodup_append'.mpr ⟨first.nodup, second.nodup, ?_⟩
    rintro ⟨symbol, derivation⟩ earlier later
    apply second.fresh later
    rw [first.derivationsAt_eq indexed (admits _ later)]
    exact List.mem_append_right _ (mem_entriesFor.mpr earlier)
  · intro symbol admitted isSome
    obtain ⟨middle, toMiddle, middleKnown, middleIsSome⟩ :=
      second.reached (firstExtends.admits_iff.mpr admitted) isSome
    rw [firstExtends.grammar_eq] at toMiddle middleKnown
    obtain ⟨target, toTarget, targetKnown, targetIsSome⟩ := first.reached
      ⟨admitted.start_le, admitted.stop_le, middleKnown⟩ middleIsSome
    exact ⟨target, toMiddle.trans toTarget, targetKnown, targetIsSome⟩

theorem nodup_productions (units : chart.UnitExtension later span entries) :
    (entries.map (·.2.production)).Nodup := by
  apply units.nodup.map_on
  rintro ⟨symbol, derivation⟩ member ⟨symbol', derivation'⟩ member' same
  obtain ⟨production, target, child, found, childFound, rfl⟩ :=
    units.derived member
  obtain ⟨production', target', child', found', childFound', rfl⟩ :=
    units.derived member'
  obtain rfl : production = production' := same
  obtain ⟨rfl, rfl⟩ := unit_unique found found' childFound childFound'
  rfl

theorem pairwise_entriesFor (units : chart.UnitExtension later span entries)
    (symbol : Nat) :
    (entriesFor symbol entries).Pairwise fun first second =>
      first.production ≠ second.production := by
  have distinct : entries.Pairwise fun first second =>
      first.2.production ≠ second.2.production :=
    List.pairwise_map.mp units.nodup_productions
  exact Chart.pairwise_entriesFor distinct symbol

theorem length_le (units : chart.UnitExtension later span entries) :
    entries.length ≤ chart.grammar.unitProductions.length := by
  have within : entries.map (·.2.production) ⊆
      chart.grammar.unitProductions := by
    intro production member
    obtain ⟨⟨symbol, derivation⟩, added, rfl⟩ := List.mem_map.mp member
    obtain ⟨production, target, child, found, _, rfl⟩ := units.derived added
    exact Grammar.mem_unitProductions found
  simpa using units.nodup_productions.length_le_of_subset within

end UnitExtension

variable {chart : Chart} {span : Span}

theorem applyUnit_cases (chart : Chart) (span : Span) (production : Nat) :
    chart.applyUnit span production = (chart, false) ∧
        chart.UnitListed span production ∨
      ∃ lhs target child,
        chart.grammar.numbered[production]? = some ⟨lhs, [target]⟩ ∧
        chart.cellAt? span target = some child ∧
        ⟨production, [child]⟩ ∉ chart.derivationsAt span lhs ∧
        chart.applyUnit span production =
          (chart.add span lhs ⟨production, [child]⟩, true) := by
  unfold applyUnit
  cases found : chart.grammar.numbered[production]? with
  | none => exact .inl ⟨rfl, fun found' => by simp [found] at found'⟩
  | some numbered =>
      obtain ⟨lhs, rhs⟩ := numbered
      dsimp only
      cases childFound : NumberedProduction.unitTarget? ⟨lhs, rhs⟩ >>=
          chart.cellAt? span with
      | none =>
          refine .inl ⟨by rw [← Option.bind_eq_bind, childFound], ?_⟩
          intro lhs' target child found' childFound'
          obtain ⟨rfl, rfl⟩ := Grammar.numbered_inj found found'
          simp [NumberedProduction.unitTarget?, childFound'] at childFound
      | some child =>
          rw [← Option.bind_eq_bind, childFound]
          obtain ⟨target, unit, childFound⟩ :=
            Option.bind_eq_some_iff.mp childFound
          obtain rfl : rhs = [target] := Grammar.unitTarget?_eq_some_iff.mp unit
          dsimp only
          cases held : chart.holds span lhs ⟨production, [child]⟩ with
          | true =>
              refine .inl ⟨rfl, ?_⟩
              intro lhs' target' child' found' childFound'
              obtain ⟨rfl, rfl⟩ := unit_unique found found' childFound childFound'
              exact holds_eq_true_iff.mp held
          | false =>
              refine .inr ⟨lhs, target, child, rfl, childFound, ?_, rfl⟩
              intro listed
              rw [holds_eq_true_iff.mpr listed] at held
              simp at held

theorem UnitExtension.single {lhs target child production : Nat}
    (indexed : chart.Indexed) (admitted : chart.Admits span lhs)
    (targetAdmitted : chart.Admits span target)
    (found : chart.grammar.numbered[production]? = some ⟨lhs, [target]⟩)
    (childFound : chart.cellAt? span target = some child)
    (missing : ⟨production, [child]⟩ ∉ chart.derivationsAt span lhs) :
    chart.UnitExtension (chart.add span lhs ⟨production, [child]⟩) span
      [(lhs, ⟨production, [child]⟩)] := by
  refine ⟨rfl, ?_, ?_, ?_, List.nodup_singleton _, ?_⟩
  · simpa using admitted
  · intro symbol derivation member
    obtain ⟨rfl, rfl⟩ := Prod.mk.inj (List.mem_singleton.mp member)
    exact ⟨production, target, child, found,
      (extends_add indexed admitted _).cellAt?_kept targetAdmitted childFound,
      rfl⟩
  · intro symbol derivation member
    obtain ⟨rfl, rfl⟩ := Prod.mk.inj (List.mem_singleton.mp member)
    exact missing
  · intro symbol symbolAdmitted isSome
    by_cases same : symbol = lhs
    · refine ⟨target, .single ⟨production, same ▸ found⟩,
        targetAdmitted.symbol_lt, ?_⟩
      rw [childFound]
      rfl
    · refine ⟨symbol, .refl, symbolAdmitted.symbol_lt, ?_⟩
      have apart : ¬ (span = span ∧ symbol = lhs) := fun both => same both.2
      rwa [isSome_cellAt?_add indexed admitted symbolAdmitted, or_iff_right apart]
        at isSome

/-- A pass over some of the productions adds unit derivations.  If it adds none,
those of these productions are all listed. -/
private theorem unitPass_run (indexed : chart.Indexed)
    (known : chart.grammar.SymbolsKnown)
    (ordered : span.start ≤ span.stop) (within : span.stop ≤ chart.words.size)
    (productions : List Nat) (changed : Bool) :
    ∃ later entries, chart.UnitExtension later span entries ∧
      productions.foldl
        (fun (chart, changed) production =>
          let (chart, added) := chart.applyUnit span production
          (chart, changed || added))
        (chart, changed) =
        (later, changed || !entries.isEmpty) ∧
      (entries = [] →
        ∀ production ∈ productions, chart.UnitListed span production) := by
  induction productions generalizing chart changed with
  | nil => exact ⟨chart, [], .refl chart span, by simp, by simp⟩
  | cons production rest ih =>
      rw [List.foldl_cons]
      rcases applyUnit_cases chart span production with ⟨applied, listed⟩ |
        ⟨lhs, target, child, found, childFound, missing, applied⟩
      · obtain ⟨later, entries, units, run, listedAll⟩ :=
          ih indexed known within (changed || false)
        refine ⟨later, entries, units, ?_, ?_⟩
        · simp only [applied]
          rw [run, Bool.or_false]
        · intro none production' member
          rcases List.mem_cons.mp member with rfl | member
          · exact listed
          · exact listedAll none production' member
      · obtain ⟨lhsKnown, rhsKnown⟩ := known.of_getElem? found
        have startLe := Nat.le_trans ordered within
        have first := UnitExtension.single indexed ⟨startLe, within, lhsKnown⟩
          ⟨startLe, within, rhsKnown target (by simp)⟩ found childFound missing
        obtain ⟨later, entries, units, run, _⟩ :=
          ih (first.extended indexed).indexed (by simpa using known)
            (by simpa using within) (changed || true)
        refine ⟨later, _, first.trans indexed known units, ?_, by simp⟩
        simp only [applied]
        rw [run]
        simp

/-- Every unit derivation whose child has a cell on the span is listed. -/
def UnitsClosed (chart : Chart) (span : Span) : Prop :=
  ∀ production, chart.UnitListed span production

/-- A pass adds unit derivations, and none only if none is missing. -/
theorem unitExtension_unitPass (indexed : chart.Indexed)
    (known : chart.grammar.SymbolsKnown)
    (ordered : span.start ≤ span.stop)
    (within : span.stop ≤ chart.words.size) :
    ∃ later entries, chart.UnitExtension later span entries ∧
      chart.unitPass span = (later, !entries.isEmpty) ∧
      (entries = [] → chart.UnitsClosed span) := by
  obtain ⟨later, entries, units, run, listed⟩ := unitPass_run indexed known
    ordered within (List.range chart.grammar.numbered.size) false
  refine ⟨later, entries, units, ?_, ?_⟩
  · rw [unitPass, run, Bool.false_or]
  · intro none production lhs target child found
    exact listed none production
      (List.mem_range.mpr (Array.getElem?_eq_some_iff.mp found).1) found

/-- Passes over a span, of which the last one and no other changes nothing: from
which chart, how many, and to which chart. -/
inductive UnitLoop (span : Span) : Chart → Nat → Chart → Prop
  | last {chart later : Chart} (pass : chart.unitPass span = (later, false)) :
      UnitLoop span chart 1 later
  | next {chart later final : Chart} {passes : Nat}
      (pass : chart.unitPass span = (later, true))
      (rest : UnitLoop span later passes final) :
      UnitLoop span chart (passes + 1) final

/-- Enough passes are allowed if there are as many as are needed. -/
theorem UnitLoop.unitPasses_eq {final : Chart} {passes remaining : Nat}
    (loop : UnitLoop span chart passes final) (enough : passes ≤ remaining) :
    unitPasses span remaining chart = final := by
  induction loop generalizing remaining with
  | last pass =>
      obtain ⟨remaining, rfl⟩ := Nat.exists_eq_add_of_le' enough
      simp [unitPasses, pass]
  | next pass rest ih =>
      obtain ⟨remaining, rfl⟩ := Nat.exists_eq_add_of_le' enough
      rw [← Nat.add_assoc, unitPasses, pass]
      exact ih (by omega)

/-- If there is a bound on the unit derivations that can be added, passes add some of
them until none is missing.  Each pass but the last adds one at least. -/
theorem exists_unitLoop (bound : Nat) (indexed : chart.Indexed)
    (known : chart.grammar.SymbolsKnown)
    (ordered : span.start ≤ span.stop) (within : span.stop ≤ chart.words.size)
    (bounded : ∀ later entries, chart.UnitExtension later span entries →
      entries.length ≤ bound) :
    ∃ passes final entries, UnitLoop span chart passes final ∧
      passes ≤ entries.length + 1 ∧
      chart.UnitExtension final span entries ∧ final.UnitsClosed span := by
  induction bound generalizing chart with
  | zero =>
      obtain ⟨later, entries, units, pass, closed⟩ :=
        unitExtension_unitPass indexed known ordered within
      obtain rfl := List.eq_nil_of_length_eq_zero
        (Nat.le_zero.mp (bounded later entries units))
      obtain rfl : later = chart := units.later_eq
      exact ⟨1, later, [], .last pass, Nat.le_refl _, units, closed rfl⟩
  | succ bound ih =>
      obtain ⟨later, entries, units, pass, closed⟩ :=
        unitExtension_unitPass indexed known ordered within
      cases entries with
      | nil =>
          obtain rfl : later = chart := units.later_eq
          exact ⟨1, later, [], .last pass, Nat.le_refl _, units, closed rfl⟩
      | cons entry rest =>
          have extended := units.extended indexed
          -- What can still be added has become less by what the pass has added.
          obtain ⟨passes, final, laterEntries, loop, few, laterUnits, closed⟩ :=
            ih extended.indexed (extended.grammar_eq ▸ known)
              (extended.words_eq ▸ within) fun final laterEntries laterUnits => by
                have := bounded _ _ (units.trans indexed known laterUnits)
                rw [List.length_append, List.length_cons] at this
                omega
          refine ⟨passes + 1, final, _, .next pass loop, ?_,
            units.trans indexed known laterUnits, closed⟩
          rw [List.length_append, List.length_cons]
          omega

/-- The allowed number of passes leaves no unit derivation missing. -/
theorem exists_unitExtension_closed (indexed : chart.Indexed)
    (known : chart.grammar.SymbolsKnown)
    (ordered : span.start ≤ span.stop)
    (within : span.stop ≤ chart.words.size) :
    ∃ passes later entries, UnitLoop span chart passes later ∧
      passes ≤ chart.grammar.unitProductions.length + 1 ∧
      unitPasses span (chart.grammar.numbered.size + 1) chart = later ∧
      chart.UnitExtension later span entries ∧ later.UnitsClosed span := by
  obtain ⟨passes, later, entries, loop, few, units, closed⟩ := exists_unitLoop _
    indexed known ordered within fun _ _ units => units.length_le
  have := units.length_le
  have := chart.grammar.length_unitProductions_le
  exact ⟨passes, later, entries, loop, by omega,
    loop.unitPasses_eq (by omega), units, closed⟩

end Chart

end Constituency
