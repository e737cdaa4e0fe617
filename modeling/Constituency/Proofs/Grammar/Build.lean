import Constituency.Grammar.Build
import Constituency.Proofs.Cycle
import Constituency.Proofs.Grammar.WellFormed

/-!
# Built grammars are well formed

A grammar is built only from productions that are distinct and of a permitted
shape, whose nonterminals are all defined, and among which no unit productions
form a cycle.  This makes it well formed.
-/

namespace Constituency

theorem Production.shape_cases {production : Production}
    (shaped : production.shapeError? = none) :
    (∃ word, production.rhs = [.terminal word]) ∨
      ∃ names, names ≠ [] ∧ production.rhs = names.map .nonterminal := by
  rw [shapeError?] at shaped
  split at shaped
  · simp at shaped
  · split at shaped
    · rename_i permitted
      rcases (Bool.or_eq_true ..).mp permitted with lexical | syntactic
      · left
        rw [isLexical] at lexical
        split at lexical
        · rename_i symbol rhs
          cases symbol with
          | terminal word => exact ⟨word, rhs⟩
          | nonterminal name => simp [Symbol.isTerminal] at lexical
        · simp at lexical
      · right
        rw [isSyntactic, Bool.and_eq_true, List.all_eq_true] at syntactic
        refine ⟨production.rhs.map Symbol.text, ?_, ?_⟩
        · simpa using syntactic.1
        · have texts : ∀ symbol ∈ production.rhs,
              Symbol.nonterminal symbol.text = symbol := by
            intro symbol member
            cases symbol with
            | terminal word =>
                simpa [Symbol.isNonterminal] using syntactic.2 _ member
            | nonterminal name => rfl
          have same := List.map_congr_left (g := id) texts
          rw [List.map_id] at same
          rw [List.map_map]
          exact same.symm
    · split at shaped <;> simp at shaped

namespace Grammar

/-- The productions that are kept are new, distinct and of a permitted
shape. -/
theorem kept_of_keepFirst {seen productions kept : List Production}
    (done : (keepFirst seen productions).2 = .ok kept) :
    kept.Nodup ∧ ∀ production ∈ kept,
      production ∉ seen ∧ production.shapeError? = none := by
  induction productions generalizing seen kept with
  | nil =>
      injection done with equal
      simp [← equal]
  | cons production rest ih =>
      rw [keepFirst] at done
      split at done
      · simp at done
      · rename_i shaped
        split at done
        · exact ih done
        · rename_i unknown
          obtain ⟨others, othersDone, rfl⟩ := map_eq_ok_iff.mp done
          obtain ⟨distinct, fresh⟩ := ih othersDone
          refine ⟨List.nodup_cons.mpr ⟨fun again => ?_, distinct⟩, ?_⟩
          · exact (fresh production again).1 (by simp)
          · intro other member
            rcases List.mem_cons.mp member with rfl | member
            · exact ⟨unknown, shaped⟩
            · have := fresh other member
              exact ⟨fun known => this.1 (by simp [known]), this.2⟩

theorem symbolName_getD_symbol? {grammar : Grammar} {name : String}
    (inverts : Inverts grammar.ids grammar.nonterminals)
    (defined : name ∈ grammar.nonterminals) :
    (grammar.symbol? name).getD 0 < grammar.symbolCount ∧
      grammar.symbolName ((grammar.symbol? name).getD 0) = name := by
  cases found : grammar.symbol? name with
  | none => exact absurd defined (inverts.lookup_eq_none_iff.mp found)
  | some symbol => exact (symbol?_eq_some_iff inverts).mp found

theorem symbolsKnown_of_index {start : String} {productions : List Production}
    {grammar : Grammar} (indexed : index start productions = .ok grammar) :
    grammar.SymbolsKnown := by
  have indexes := indexes_of_index indexed
  have inverts := indexes.inverts
  intro numbered member
  obtain ⟨place, found⟩ := Array.mem_iff_getElem?.mp member
  rw [← Array.getElem?_toList] at found
  obtain ⟨production, listed, done⟩ :=
    getElem?_of_forall₂ indexes.lists.numbered.flip found
  have defined : production.lhs ∈ grammar.nonterminals :=
    (mem_nonterminals_iff indexes).mpr
      ⟨production, List.mem_of_getElem? listed, rfl⟩
  have lhsKnown : numbered.lhs < grammar.symbolCount :=
    lhs_of_numberProduction done ▸ (symbolName_getD_symbol? inverts defined).1
  refine ⟨lhsKnown, fun symbol listed => ?_⟩
  unfold numberProduction at done
  dsimp only at done
  split at done
  · cases done
    simp at listed
  · obtain ⟨numbers, symbols, rfl⟩ := map_eq_ok_iff.mp done
    obtain ⟨place, found⟩ := List.mem_iff_getElem?.mp listed
    obtain ⟨_, _, isNumber⟩ :=
      getElem?_of_forall₂ (forall₂_of_numberSymbols symbols).flip found
    exact ((symbol?_eq_some_iff inverts).mp isNumber).1

private theorem names_of_numberSymbols {grammar : Grammar}
    (inverts : Inverts grammar.ids grammar.nonterminals) {names : List String}
    {numbers : List Nat}
    (sideBySide : List.Forall₂ (fun (symbol : Symbol) number =>
      grammar.ids.lookup symbol.text = some number)
      (names.map .nonterminal) numbers) :
    names = numbers.map grammar.symbolName ∧
      ∀ number ∈ numbers, number < grammar.symbolCount := by
  induction names generalizing numbers with
  | nil =>
      cases sideBySide
      simp
  | cons name rest ih =>
      rcases sideBySide with _ | ⟨found, others⟩
      obtain ⟨known, named⟩ := (symbol?_eq_some_iff inverts).mp found
      obtain ⟨restEq, restKnown⟩ := ih others
      refine ⟨?_, by simpa using ⟨known, restKnown⟩⟩
      rw [List.map_cons, ← restEq, named]
      rfl

theorem numbers_of_numberProduction {grammar : Grammar}
    {production : Production} {numbered : NumberedProduction}
    (inverts : Inverts grammar.ids grammar.nonterminals)
    (shaped : production.shapeError? = none)
    (defined : production.lhs ∈ grammar.nonterminals)
    (done : numberProduction grammar.ids production = .ok numbered) :
    grammar.Numbers production numbered := by
  obtain ⟨known, named⟩ := symbolName_getD_symbol? inverts defined
  obtain ⟨lhs, rhs⟩ := production
  simp only [symbol?] at known named
  simp only [numberProduction] at done
  generalize (grammar.ids.lookup lhs).getD 0 = number at done known named
  subst lhs
  rcases Production.shape_cases shaped with
    ⟨word, equal⟩ | ⟨names, nonempty, equal⟩
  · dsimp only at equal
    subst rhs
    simp only [Production.word?, Except.ok.injEq] at done
    subst done
    exact .lexical word known
  · dsimp only at equal
    subst rhs
    have noWord : (Production.mk (grammar.symbolName number)
        (names.map .nonterminal)).word? = none := by
      rcases names with _ | ⟨first, _ | ⟨second, rest⟩⟩ <;>
        simp [Production.word?]
    simp only [noWord] at done
    obtain ⟨numbers, symbols, rfl⟩ := map_eq_ok_iff.mp done
    obtain ⟨rfl, knownRhs⟩ :=
      names_of_numberSymbols inverts (forall₂_of_numberSymbols symbols)
    rw [List.map_map]
    exact .syntactic known (by simpa using nonempty) knownRhs

theorem byLhs_eq_findIdxs {grammar : Grammar} {start : String}
    {productions : List Production} {symbol : Nat}
    (indexes : Indexes grammar start productions)
    (known : symbol < grammar.symbolCount) :
    grammar.byLhs.getD symbol [] =
      productions.findIdxs (·.lhs = grammar.symbolName symbol) := by
  have found := getElem?_nonterminals_eq_some_iff.mpr ⟨known, rfl⟩
  rw [indexes.byLhs_eq, Array.getD_eq_getD_getElem?, Array.getElem?_map,
    found]
  rfl

theorem byLhs_eq_nil {grammar : Grammar} {start : String}
    {productions : List Production} {symbol : Nat}
    (indexes : Indexes grammar start productions)
    (unknown : ¬ symbol < grammar.symbolCount) :
    grammar.byLhs.getD symbol [] = [] := by
  rw [indexes.byLhs_eq, Array.getD_eq_getD_getElem?, Array.getElem?_map,
    Array.getElem?_eq_none (Nat.le_of_not_lt unknown)]
  rfl

theorem exists_production_of_getElem? {grammar : Grammar}
    {productions : List Production} {numbered : NumberedProduction} {index : Nat}
    (numbers : List.Forall₂ grammar.Numbers productions
      grammar.numbered.toList)
    (found : grammar.numbered[index]? = some numbered) :
    ∃ production, productions[index]? = some production ∧
      grammar.Numbers production numbered :=
  getElem?_of_forall₂ numbers.flip
    (by rw [Array.getElem?_toList]; exact found)

theorem mem_byLhs_iff {grammar : Grammar} {start : String}
    {productions : List Production}
    (indexes : Indexes grammar start productions)
    (numbers : List.Forall₂ grammar.Numbers productions
      grammar.numbered.toList)
    {symbol index : Nat} :
    index ∈ grammar.byLhs.getD symbol [] ↔
      ∃ rhs, grammar.numbered[index]? = some ⟨symbol, rhs⟩ := by
  by_cases known : symbol < grammar.symbolCount
  · simp only [byLhs_eq_findIdxs indexes known, mem_findIdxs_iff,
      decide_eq_true_eq]
    constructor
    · rintro ⟨production, found, lhsEq⟩
      obtain ⟨numbered, found', numbers'⟩ := getElem?_of_forall₂ numbers found
      rw [Array.getElem?_toList] at found'
      have lhsEq' := symbolName_injective indexes.inverts numbers'.known.1
        known (numbers'.lhs_eq.symm.trans lhsEq)
      exact ⟨numbered.rhs, by rw [found', ← lhsEq']⟩
    · rintro ⟨rhs, found⟩
      obtain ⟨production, found', numbers'⟩ :=
        exists_production_of_getElem? numbers found
      exact ⟨production, found', numbers'.lhs_eq⟩
  · rw [byLhs_eq_nil indexes known]
    refine iff_of_false List.not_mem_nil ?_
    rintro ⟨rhs, found⟩
    obtain ⟨_, _, numbers'⟩ := exists_production_of_getElem? numbers found
    exact known numbers'.known.1

theorem mem_unitTargets_iff {grammar : Grammar} {start : String}
    {productions : List Production}
    (indexes : Indexes grammar start productions)
    (numbers : List.Forall₂ grammar.Numbers productions
      grammar.numbered.toList)
    {symbol target : Nat} :
    target ∈ grammar.unitTargets symbol ↔
      ∃ index : Nat, grammar.numbered[index]? = some ⟨symbol, [target]⟩ := by
  simp only [unitTargets, List.mem_filterMap, mem_byLhs_iff indexes numbers,
    Option.bind_eq_some_iff, unitTarget?_eq_some_iff]
  constructor
  · rintro ⟨index, ⟨rhs, found⟩, numbered, found', rhsEq⟩
    obtain rfl := Option.some.inj (found.symm.trans found')
    exact ⟨index, rhsEq ▸ found⟩
  · rintro ⟨index, found⟩
    exact ⟨index, ⟨_, found⟩, _, found, rfl⟩

theorem numbers_of_indexes {grammar : Grammar} {start : String}
    {productions : List Production}
    (indexes : Indexes grammar start productions)
    (shaped : ∀ production ∈ productions, production.shapeError? = none) :
    List.Forall₂ grammar.Numbers productions grammar.numbered.toList := by
  have sideBySide :=
    (List.forall₂_and_left (p := (· ∈ productions)) productions
      grammar.numbered.toList).mpr
      ⟨fun _ member => member, indexes.lists.numbered⟩
  refine sideBySide.imp fun production numbered ⟨member, done⟩ => ?_
  have defined : production.lhs ∈ grammar.nonterminals :=
    (mem_nonterminals_iff indexes).mpr ⟨production, member, rfl⟩
  exact numbers_of_numberProduction indexes.inverts (shaped production member)
    defined done

/-- Without a cycle of unit productions the nonterminals can be ranked such that
these productions lower the rank. -/
theorem exists_rank_of_defect?_eq_none {grammar : Grammar} {start : String}
    {productions : List Production}
    (indexes : Indexes grammar start productions)
    (numbers : List.Forall₂ grammar.Numbers productions
      grammar.numbered.toList)
    (sound : grammar.defect? = none) :
    ∃ (rank : Nat → Nat) (height : Nat),
      (∀ symbol < grammar.symbolCount, rank symbol < height) ∧
      ∀ (index lhs target : Nat),
        grammar.numbered[index]? = some ⟨lhs, [target]⟩ →
        rank target < rank lhs := by
  have known : ∀ (index lhs target : Nat),
      grammar.numbered[index]? = some ⟨lhs, [target]⟩ →
      lhs < grammar.symbolCount ∧ target < grammar.symbolCount := by
    intro index lhs target found
    obtain ⟨_, _, numbers'⟩ := exists_production_of_getElem? numbers found
    exact ⟨numbers'.known.1, numbers'.known.2 target (by simp)⟩
  have acyclic : Cycle.first? grammar.unitTargets grammar.symbolCount = none := by
    unfold defect? at sound
    split at sound
    · simp at sound
    · rename_i noCycle
      exact noCycle
  obtain ⟨rank, height, ranked⟩ := Cycle.exists_rank_of_first?_eq_none
    (fun symbol below target arrow => by
      obtain ⟨index, found⟩ :=
        (mem_unitTargets_iff indexes numbers).mp arrow
      exact (known index symbol target found).2)
    acyclic
  refine ⟨rank, height, fun symbol below => (ranked symbol below).1, ?_⟩
  intro index lhs target found
  have below := (known index lhs target found).1
  exact (ranked lhs below).2 target
    ((mem_unitTargets_iff indexes numbers).mpr ⟨index, found⟩)

theorem wellFormed_of_ofDistinct {start : String}
    {productions : List Production} {grammar : Grammar}
    (distinct : productions.Nodup)
    (shaped : ∀ production ∈ productions, production.shapeError? = none)
    (accepted : ofDistinct start productions = .ok grammar) :
    grammar.WellFormed := by
  unfold ofDistinct at accepted
  split at accepted
  · simp at accepted
  · rename_i grammar' indexed
    split at accepted
    · simp at accepted
    · rename_i sound
      injection accepted with equal
      subst grammar'
      have indexes := indexes_of_index indexed
      have numbers := numbers_of_indexes indexes shaped
      refine ⟨indexes.productions_eq ▸ distinct, indexes.inverts,
        indexes.start_eq ▸ indexes.start_mem,
        indexes.productions_eq ▸ numbers, fun word => ?_, ?_⟩
      · rw [indexes.productions_eq]
        exact indexes.lists.lookup_lexicon word
      · exact exists_rank_of_defect?_eq_none indexes numbers sound

/-- A grammar that has been built has no defects, and the given start symbol. -/
theorem wellFormed_of_ofProductions {start : String}
    {productions : List Production} {grammar : Grammar}
    (accepted : ofProductions start productions = .ok grammar) :
    grammar.WellFormed := by
  unfold ofProductions build at accepted
  split at accepted
  · simp at accepted
  · cases kept : (keepFirst [] productions).2 with
    | error fault => simp [kept, Except.bind] at accepted
    | ok kept' =>
        cases built : ofDistinct start kept' with
        | error fault => simp [kept, built, Except.bind] at accepted
        | ok grammar' =>
            simp only [kept, built, Except.bind, Except.ok.injEq] at accepted
            subst accepted
            obtain ⟨distinct, shaped⟩ := kept_of_keepFirst kept
            exact wellFormed_of_ofDistinct distinct
              (fun production member => (shaped production member).2) built

end Grammar

end Constituency
