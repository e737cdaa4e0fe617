import Constituency.Proofs.Cycle
import Constituency.Proofs.Grammar.Verdict

/-!
# The check for unit cycles

Whether some nonterminal derives itself by unit productions is decided by a
search along the unit productions, from every nonterminal in turn.  The search
comes to an end on every grammar, it fails just if there is such a nonterminal,
reachable or not, and the one that it names is such a nonterminal.
-/

namespace Constituency

namespace Grammar

variable {start : String} {productions : List Production}

/-- The check for unit cycles is exact, and what it names derives itself. -/
theorem unitCycle?_exact (closed : Closed start productions) :
    ∃ grammar, index start productions = .ok grammar ∧
      (∃ outcome, Cycle.Explores grammar.unitTargets [] []
        (List.range grammar.symbolCount) outcome) ∧
      (∀ symbol, grammar.unitCycle? = some symbol ↔
        Cycle.Explores grammar.unitTargets [] []
          (List.range grammar.symbolCount) (.error symbol)) ∧
      ((∃ symbol, grammar.unitCycle? = some symbol) ↔
        ∃ name, UnitCycle productions name) ∧
      ∀ symbol, grammar.unitCycle? = some symbol →
        grammar.defect? = some (.unitCycle (grammar.symbolName symbol)) ∧
        UnitCycle productions (grammar.symbolName symbol) := by
  obtain ⟨grammar, indexed, indexes, numbers⟩ := exists_index_of_closed closed
  have within := unitTargets_lt indexes numbers
  have named : ∀ symbol, grammar.unitCycle? = some symbol →
      UnitCycle productions (grammar.symbolName symbol) := fun _ found =>
    unitCycle_of_unitCycle?_eq_some indexes numbers found
  refine ⟨grammar, indexed, ⟨_, Cycle.explores_search within⟩,
    fun symbol => Cycle.first?_eq_some_iff within, ⟨?_, ?_⟩,
    fun symbol found => ⟨by rw [defect?, found], named symbol found⟩⟩
  · rintro ⟨symbol, found⟩
    exact ⟨_, named symbol found⟩
  · rintro ⟨name, cycle⟩
    rw [← Option.isSome_iff_exists, Option.isSome_iff_ne_none]
    intro none
    exact not_unitCycle_of_unitCycle?_eq_none indexes numbers none name cycle

/-- Productions with a unit cycle that the start symbol does not reach, and that a
nonterminal outside of it leads into. -/
def detachedCycle : List Production :=
  [⟨"S", [.terminal "x"]⟩, ⟨"A", [.nonterminal "B"]⟩,
    ⟨"B", [.nonterminal "C"]⟩, ⟨"C", [.nonterminal "B"]⟩]

theorem closed_detachedCycle : Closed "S" detachedCycle where
  nonempty := by decide
  wellShaped := by decide
  startDefined := ⟨⟨"S", [.terminal "x"]⟩, by decide, rfl⟩
  allDefined := by simp [AllDefined, Defines, detachedCycle]

theorem unitCycle?_exact_detachedCycle :
    ∃ grammar symbol, index "S" detachedCycle = .ok grammar ∧
      grammar.unitCycle? = some symbol ∧
      UnitCycle detachedCycle (grammar.symbolName symbol) := by
  have forth : UnitStep detachedCycle "B" "C" := by
    simp [UnitStep, detachedCycle]
  have back : UnitStep detachedCycle "C" "B" := by
    simp [UnitStep, detachedCycle]
  obtain ⟨grammar, indexed, _, _, found_iff, named⟩ :=
    unitCycle?_exact closed_detachedCycle
  obtain ⟨symbol, found⟩ := found_iff.mpr ⟨"B", .tail (.single forth) back⟩
  exact ⟨grammar, symbol, indexed, found, (named symbol found).2⟩

end Grammar

end Constituency
