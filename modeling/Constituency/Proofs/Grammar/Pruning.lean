import Constituency.Proofs.Grammar.Reachable

/-!
# Grammars without unreachable nonterminals

Productions of which a grammar can be built remain such productions when those for
nonterminals that cannot be reached are left out, and nothing is then reported as
unreachable.
-/

namespace Constituency

variable {pruned productions : List Production} {start : String}

theorem defines_of_prunes (prunes : Prunes pruned productions start)
    {name : String} (reached : Reaches productions start name)
    (defined : Defines productions name) : Defines pruned name := by
  obtain ⟨production, listed, rfl⟩ := defined
  exact ⟨production, (prunes production).mpr ⟨listed, reached⟩, rfl⟩

theorem acceptable_of_prunes (prunes : Prunes pruned productions start)
    (acceptable : Acceptable start productions) : Acceptable start pruned := by
  have startDefined : Defines pruned start :=
    defines_of_prunes prunes .refl acceptable.startDefined
  have shaped : Shaped pruned := by
    constructor
    · obtain ⟨production, listed, _⟩ := startDefined
      exact List.ne_nil_of_mem listed
    · intro production listed
      exact acceptable.wellShaped production (prunes.subset listed)
  have allDefined : AllDefined pruned := by
    intro production listed name member
    obtain ⟨listed, reached⟩ := (prunes production).mp listed
    apply defines_of_prunes prunes (reached.of_mem listed member)
    exact acceptable.allDefined production listed name member
  have noUnitCycle : ∀ name, ¬ UnitCycle pruned name := by
    intro name cycle
    apply acceptable.noUnitCycle name
    exact cycle.lift id fun _ _ step => prunes.subset step
  have productive : ∀ name, Defines pruned name → Productive pruned name := by
    rintro name ⟨production, listed, rfl⟩
    obtain ⟨listed, reached⟩ := (prunes production).mp listed
    obtain ⟨sentence, yields⟩ :=
      acceptable.productive production.lhs ⟨production, listed, rfl⟩
    refine ⟨sentence, prunes.yields yields fun name member => ?_⟩
    obtain rfl := Symbol.nonterminal.inj (List.mem_singleton.mp member)
    exact reached
  exact ⟨⟨⟨⟨shaped, startDefined⟩, allDefined⟩, noUnitCycle⟩, productive⟩

namespace Grammar

variable {grammar : Grammar}

/-- The productions of the nonterminals that are not among those reported as
unreachable. -/
def unreported (grammar : Grammar) (events : List BuildEvent) :
    List Production :=
  grammar.productions.toList.filter fun production =>
    .unreachable production.lhs ∉ events

variable (accepted : ofProductions start productions = .ok grammar)

include accepted

theorem prunes_unreported :
    Prunes (grammar.unreported (build start productions).events)
      grammar.productions.toList grammar.start := by
  intro production
  rw [unreported, List.mem_filter, decide_eq_true_eq]
  constructor
  · rintro ⟨listed, notReported⟩
    exact ⟨listed, reaches_of_not_reported accepted
      (Array.mem_toList_iff.mp listed) notReported⟩
  · rintro ⟨listed, reached⟩
    refine ⟨listed, fun reported => ?_⟩
    exact ((unreachable_mem_events_iff accepted).mp reported).2 reached

/-- Without the productions of unreachable nonterminals a grammar can be built
again, and nothing is reported as unreachable. -/
theorem exists_pruned :
    ∃ pruned, ofProductions grammar.start
        (grammar.unreported (build start productions).events) = .ok pruned ∧
      pruned.start = grammar.start ∧
      pruned.productions.toList =
        grammar.unreported (build start productions).events ∧
      ∀ name, .unreachable name ∉ (build grammar.start
        (grammar.unreported (build start productions).events)).events := by
  have prunes := prunes_unreported accepted
  have acceptable := acceptable_of_accepted accepted
  obtain ⟨pruned, prunedEq, indexes⟩ :=
    exists_ofProductions_eq_ok (acceptable_of_prunes prunes acceptable)
  have distinct :
      (grammar.unreported (build start productions).events).Nodup :=
    (wellFormed_of_ofProductions accepted).productions_nodup.filter _
  have productionsEq := indexes.productions_eq
  rw [eraseDups_of_nodup distinct] at productionsEq
  refine ⟨pruned, prunedEq, indexes.start_eq, productionsEq, ?_⟩
  intro name reported
  obtain ⟨⟨production, listed, rfl⟩, notReached⟩ :=
    (unreachable_mem_events_iff prunedEq).mp reported
  rw [productionsEq, indexes.start_eq, prunes.reaches_iff] at notReached
  rw [productionsEq] at listed
  exact notReached ((prunes production).mp listed).2

end Grammar

end Constituency
