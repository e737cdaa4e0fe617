import Constituency.Proofs.Derivation.Yield
import Constituency.Proofs.Grammar.Defined
import Constituency.Proofs.Horn
import Mathlib.Data.List.Find

/-!
# Defects of an indexed grammar

An indexed grammar has a unit cycle exactly if some nonterminal derives itself
by unit productions, and the nonterminals that it takes to be productive are
those that derive a sentence.  Both are found among the numbers of the
nonterminals, and are said here of their names.
-/

namespace Constituency

/-- The nonterminal is replaced by the target in a single unit production. -/
def UnitStep (productions : List Production) (name target : String) : Prop :=
  ⟨name, [.nonterminal target]⟩ ∈ productions

/-- The nonterminal derives itself by one or more unit productions. -/
def UnitCycle (productions : List Production) (name : String) : Prop :=
  Relation.TransGen (UnitStep productions) name name

namespace Grammar

section Numbered

variable {grammar : Grammar} {start : String} {productions : List Production}
variable {symbol target : Nat} {name other : String}
variable (indexes : Indexes grammar start productions)
variable (numbers : List.Forall₂ grammar.Numbers productions
  grammar.numbered.toList)

include numbers in
theorem exists_numbered_of_mem {production : Production}
    (listed : production ∈ productions) :
    ∃ numbered, numbered ∈ grammar.numbered.toList ∧
      grammar.Numbers production numbered := by
  obtain ⟨index, found⟩ := List.mem_iff_getElem?.mp listed
  obtain ⟨numbered, found', beside⟩ := getElem?_of_forall₂ numbers found
  exact ⟨numbered, List.mem_of_getElem? found', beside⟩

include numbers in
theorem exists_production_of_mem {numbered : NumberedProduction}
    (listed : numbered ∈ grammar.numbered.toList) :
    ∃ production ∈ productions, grammar.Numbers production numbered := by
  obtain ⟨index, found⟩ := List.mem_iff_getElem?.mp listed
  obtain ⟨production, found', beside⟩ := getElem?_of_forall₂ numbers.flip found
  exact ⟨production, List.mem_of_getElem? found', beside⟩

include indexes numbers in
theorem unitTargets_lt :
    ∀ symbol < grammar.symbolCount, ∀ target ∈ grammar.unitTargets symbol,
      target < grammar.symbolCount := by
  intro symbol known target arrow
  obtain ⟨index, found⟩ := (mem_unitTargets_iff indexes numbers).mp arrow
  obtain ⟨_, _, beside⟩ := exists_production_of_getElem? numbers found
  exact beside.known.2 target (by simp)

include indexes numbers in
theorem unitStep_of_arrow
    (arrow : Cycle.Arrow grammar.unitTargets symbol target) :
    UnitStep productions (grammar.symbolName symbol)
      (grammar.symbolName target) := by
  obtain ⟨index, found⟩ := (mem_unitTargets_iff indexes numbers).mp arrow
  obtain ⟨_, placed, beside⟩ := exists_production_of_getElem? numbers found
  cases beside with
  | syntactic => exact List.mem_of_getElem? placed

include indexes numbers in
theorem exists_arrow_of_unitStep (step : UnitStep productions name other) :
    ∃ symbol target, symbol < grammar.symbolCount ∧
      target < grammar.symbolCount ∧ grammar.symbolName symbol = name ∧
      grammar.symbolName target = other ∧
      Cycle.Arrow grammar.unitTargets symbol target := by
  obtain ⟨numbered, listed, beside⟩ := exists_numbered_of_mem numbers step
  generalize same : Production.mk name [.nonterminal other] = production at beside
  cases beside with
  | lexical word known => simp at same
  | @syntactic symbol rhs known nonempty knownRhs =>
      obtain ⟨target, rfl⟩ : ∃ target, rhs = [target] := by
        rcases rhs with _ | ⟨target, _ | ⟨second, rest⟩⟩
        · simp at nonempty
        · exact ⟨target, rfl⟩
        · simp at same
      simp only [List.map_cons, List.map_nil, Production.mk.injEq,
        List.cons.injEq, Symbol.nonterminal.injEq, and_true] at same
      obtain ⟨index, found⟩ := List.mem_iff_getElem?.mp listed
      refine ⟨symbol, target, known, knownRhs target (by simp), same.1.symm,
        same.2.symm, ?_⟩
      rw [Array.getElem?_toList] at found
      exact (mem_unitTargets_iff indexes numbers).mpr ⟨index, found⟩

include indexes numbers in
theorem exists_transGen_arrow
    (steps : Relation.TransGen (UnitStep productions) name other) :
    ∃ symbol target, symbol < grammar.symbolCount ∧
      target < grammar.symbolCount ∧ grammar.symbolName symbol = name ∧
      grammar.symbolName target = other ∧
      Relation.TransGen (Cycle.Arrow grammar.unitTargets) symbol target := by
  induction steps with
  | single step =>
      obtain ⟨symbol, target, known, targetKnown, rfl, rfl, arrow⟩ :=
        exists_arrow_of_unitStep indexes numbers step
      exact ⟨symbol, target, known, targetKnown, rfl, rfl, .single arrow⟩
  | tail _ step ih =>
      obtain ⟨symbol, middle, known, middleKnown, rfl, rfl, arrows⟩ := ih
      obtain ⟨middle', target, middleKnown', targetKnown, same, rfl, arrow⟩ :=
        exists_arrow_of_unitStep indexes numbers step
      obtain rfl :=
        symbolName_injective indexes.inverts middleKnown' middleKnown same
      exact ⟨symbol, target, known, targetKnown, rfl, rfl, arrows.tail arrow⟩

include indexes numbers in
theorem unitCycle_of_unitCycle?_eq_some
    (found : grammar.unitCycle? = some symbol) :
    UnitCycle productions (grammar.symbolName symbol) :=
  (Cycle.transGen_of_first?_eq_some (unitTargets_lt indexes numbers) found).lift
    grammar.symbolName fun _ _ arrow => unitStep_of_arrow indexes numbers arrow

include indexes numbers in
theorem not_unitCycle_of_unitCycle?_eq_none
    (none : grammar.unitCycle? = none) (name : String) :
    ¬ UnitCycle productions name := by
  intro cycle
  obtain ⟨symbol, target, known, targetKnown, nameEq, targetEq, arrows⟩ :=
    exists_transGen_arrow indexes numbers cycle
  obtain rfl := symbolName_injective indexes.inverts known
    targetKnown (nameEq.trans targetEq.symm)
  exact Cycle.not_transGen_of_first?_eq_none (unitTargets_lt indexes numbers)
    none known arrows

include numbers in
theorem productive_of_follows
    (follows : HornClause.Follows grammar.productivityClauses [] symbol) :
    Productive productions (grammar.symbolName symbol) := by
  induction follows with
  | given member => simp at member
  | @rule clause listed body ih =>
      obtain ⟨numbered, numberedListed, rfl⟩ := List.mem_map.mp listed
      obtain ⟨production, member, beside⟩ :=
        exists_production_of_mem numbers numberedListed
      obtain ⟨sentence, yields⟩ :
          ∃ sentence, Yields productions production.rhs sentence := by
        cases beside with
        | lexical word => exact ⟨[word], .terminal word .nil⟩
        | syntactic =>
            apply exists_yields_of_productive
            intro name nameListed
            obtain ⟨target, targetListed, same⟩ := List.mem_map.mp nameListed
            obtain rfl := Symbol.nonterminal.inj same
            exact ih target targetListed
      rw [← beside.lhs_eq]
      exact productive_of_yields member yields

include indexes numbers in
theorem follows_of_yields {symbols : List Symbol} {sentence : List String}
    (yields : Yields productions symbols sentence) :
    ∀ symbol < grammar.symbolCount,
      .nonterminal (grammar.symbolName symbol) ∈ symbols →
      HornClause.Follows grammar.productivityClauses [] symbol := by
  induction yields with
  | nil => simp
  | terminal word _ ih =>
      intro symbol known member
      exact ih symbol known (by simpa using member)
  | @nonterminal production rest first second listed _ _ bodyIh tailIh =>
      intro symbol known member
      rcases List.mem_cons.mp member with same | member
      · obtain ⟨numbered, numberedListed, beside⟩ :=
          exists_numbered_of_mem numbers listed
        have clauseListed : ⟨numbered.rhs, numbered.lhs⟩ ∈
            grammar.productivityClauses :=
          List.mem_map.mpr ⟨numbered, numberedListed, rfl⟩
        have names : grammar.symbolName symbol =
            grammar.symbolName numbered.lhs := by
          rw [← beside.lhs_eq]
          exact Symbol.nonterminal.inj same
        obtain rfl :=
          symbolName_injective indexes.inverts known beside.known.1 names
        refine HornClause.Follows.rule clauseListed fun target targetListed => ?_
        apply bodyIh target (beside.known.2 target targetListed)
        cases beside with
        | lexical => simp at targetListed
        | syntactic => exact List.mem_map_of_mem targetListed
      · exact tailIh symbol known member

include indexes numbers in
theorem mem_productive_iff (known : symbol < grammar.symbolCount) :
    symbol ∈ grammar.productive ↔
      Productive productions (grammar.symbolName symbol) := by
  rw [productive, HornClause.mem_closure_iff]
  constructor
  · exact productive_of_follows numbers
  · rintro ⟨sentence, yields⟩
    exact follows_of_yields indexes numbers yields symbol known (by simp)

open Classical in
include indexes numbers in
theorem unproductive?_eq :
    grammar.unproductive?.map grammar.symbolName =
      (productions.find? fun production =>
        ¬ Productive productions production.lhs).map (·.lhs) := by
  have marked : ∀ symbol ∈ List.range grammar.symbolCount,
      (decide (symbol ∉ grammar.productive)) =
        decide ¬ Productive productions (grammar.symbolName symbol) := by
    intro symbol member
    have known := List.mem_range.mp member
    rw [decide_eq_decide, mem_productive_iff indexes numbers known]
  calc grammar.unproductive?.map grammar.symbolName
    _ = ((List.range grammar.symbolCount).find? fun symbol =>
          ¬ Productive productions (grammar.symbolName symbol)).map
            grammar.symbolName := by
        rw [unproductive?, List.find?_congr marked]
    _ = grammar.nonterminals.toList.find? fun name =>
          ¬ Productive productions name := by
        rw [toList_nonterminals, List.find?_map]
        rfl
    _ = (productions.map (·.lhs)).find? fun name =>
          ¬ Productive productions name := by
        rw [indexes.nonterminals_eq, find?_eraseDups]
    _ = _ := List.find?_map ..

end Numbered

end Grammar

end Constituency
