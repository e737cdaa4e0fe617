import Constituency.Proofs.Grammar.Index

/-!
# Well-formed grammars

What a parser relies on in a grammar: productions are distinct, the number of a
nonterminal is the place of its name, every production stands beside its numbered
form, the lexicon lists the productions of each word, and the nonterminals can be
ranked such that unit productions lower the rank.
-/

namespace Constituency

namespace Grammar

/-- A production and its form in terms of the numbers of its nonterminals. -/
inductive Numbers (grammar : Grammar) :
    Production → NumberedProduction → Prop
  | lexical {lhs : Nat} (word : String) (known : lhs < grammar.symbolCount) :
      Numbers grammar ⟨grammar.symbolName lhs, [.terminal word]⟩ ⟨lhs, []⟩
  | syntactic {lhs : Nat} {rhs : List Nat} (known : lhs < grammar.symbolCount)
      (nonempty : rhs ≠ [])
      (knownRhs : ∀ symbol ∈ rhs, symbol < grammar.symbolCount) :
      Numbers grammar
        ⟨grammar.symbolName lhs,
          rhs.map fun symbol => .nonterminal (grammar.symbolName symbol)⟩
        ⟨lhs, rhs⟩

/-- The numbers in all productions are those of nonterminals.  This holds of every
grammar that has been indexed, whatever may be wrong with it. -/
def SymbolsKnown (grammar : Grammar) : Prop :=
  ∀ numbered ∈ grammar.numbered, numbered.lhs < grammar.symbolCount ∧
    ∀ symbol ∈ numbered.rhs, symbol < grammar.symbolCount

/-- What a parser relies on. -/
structure WellFormed (grammar : Grammar) : Prop where
  productions_nodup : grammar.productions.toList.Nodup
  inverts : Inverts grammar.ids grammar.nonterminals
  start_mem : grammar.start ∈ grammar.nonterminals
  numbers : List.Forall₂ grammar.Numbers grammar.productions.toList
    grammar.numbered.toList
  lexicalFor_eq : ∀ word, grammar.lexicalFor word =
    grammar.productions.toList.findIdxs (·.word? = some word)
  /-- Unit productions lead to nonterminals of lower rank. -/
  exists_rank : ∃ (rank : Nat → Nat) (height : Nat),
    (∀ symbol < grammar.symbolCount, rank symbol < height) ∧
    ∀ (index lhs target : Nat),
      grammar.numbered[index]? = some ⟨lhs, [target]⟩ →
      rank target < rank lhs

theorem unitTarget?_eq_some_iff {numbered : NumberedProduction}
    {target : Nat} :
    numbered.unitTarget? = some target ↔ numbered.rhs = [target] := by
  unfold NumberedProduction.unitTarget?
  split
  · rename_i other equal
    simp [equal]
  · rename_i notUnit
    simp only [reduceCtorEq, false_iff]
    exact notUnit target

theorem getElem?_nonterminals_eq_some_iff {grammar : Grammar} {symbol : Nat}
    {name : String} :
    grammar.nonterminals[symbol]? = some name ↔
      symbol < grammar.symbolCount ∧ grammar.symbolName symbol = name := by
  rw [symbolName, symbolCount, Array.getD_eq_getD_getElem?]
  by_cases known : symbol < grammar.nonterminals.size
  · simp [known]
  · simp [known]

theorem toList_nonterminals (grammar : Grammar) :
    grammar.nonterminals.toList =
      (List.range grammar.symbolCount).map grammar.symbolName := by
  apply List.ext_getElem
  · simp [symbolCount]
  · intro symbol known _
    rw [Array.length_toList] at known
    simp [symbolName, known]

theorem symbol?_eq_some_iff {grammar : Grammar}
    (inverts : Inverts grammar.ids grammar.nonterminals) {name : String}
    {symbol : Nat} :
    grammar.symbol? name = some symbol ↔
      symbol < grammar.symbolCount ∧ grammar.symbolName symbol = name := by
  rw [← getElem?_nonterminals_eq_some_iff]
  exact inverts name symbol

theorem symbolName_injective {grammar : Grammar}
    (inverts : Inverts grammar.ids grammar.nonterminals) {first second : Nat}
    (firstKnown : first < grammar.symbolCount)
    (secondKnown : second < grammar.symbolCount)
    (same : grammar.symbolName first = grammar.symbolName second) :
    first = second := by
  have found := (symbol?_eq_some_iff inverts).mpr ⟨firstKnown, same⟩
  have found' := (symbol?_eq_some_iff inverts).mpr ⟨secondKnown, rfl⟩
  exact Option.some.inj (found.symm.trans found')

theorem Numbers.known {grammar : Grammar} {production : Production}
    {numbered : NumberedProduction}
    (numbers : grammar.Numbers production numbered) :
    numbered.lhs < grammar.symbolCount ∧
      ∀ symbol ∈ numbered.rhs, symbol < grammar.symbolCount := by
  cases numbers with
  | lexical word known => exact ⟨known, by simp⟩
  | syntactic known nonempty knownRhs => exact ⟨known, knownRhs⟩

theorem Numbers.lhs_eq {grammar : Grammar} {production : Production}
    {numbered : NumberedProduction}
    (numbers : grammar.Numbers production numbered) :
    production.lhs = grammar.symbolName numbered.lhs := by
  cases numbers <;> rfl

theorem SymbolsKnown.of_getElem? {grammar : Grammar}
    (known : grammar.SymbolsKnown) {index : Nat} {numbered : NumberedProduction}
    (found : grammar.numbered[index]? = some numbered) :
    numbered.lhs < grammar.symbolCount ∧
      ∀ symbol ∈ numbered.rhs, symbol < grammar.symbolCount :=
  known numbered (Array.mem_of_getElem? found)

theorem numbered_inj {grammar : Grammar} {index lhs lhs' : Nat}
    {rhs rhs' : List Nat} (found : grammar.numbered[index]? = some ⟨lhs, rhs⟩)
    (found' : grammar.numbered[index]? = some ⟨lhs', rhs'⟩) :
    lhs = lhs' ∧ rhs = rhs' := by
  simpa using found.symm.trans found'

namespace WellFormed

variable {grammar : Grammar}

theorem exists_production (wellFormed : grammar.WellFormed) {index : Nat}
    {numbered : NumberedProduction}
    (found : grammar.numbered[index]? = some numbered) :
    ∃ production, grammar.productions[index]? = some production ∧
      grammar.Numbers production numbered := by
  obtain ⟨production, found', numbers⟩ := getElem?_of_forall₂
    wellFormed.numbers.flip (by rw [Array.getElem?_toList]; exact found)
  exact ⟨production, by simpa using found', numbers⟩

theorem exists_numbered (wellFormed : grammar.WellFormed) {index : Nat}
    {production : Production}
    (found : grammar.productions[index]? = some production) :
    ∃ numbered, grammar.numbered[index]? = some numbered ∧
      grammar.Numbers production numbered := by
  obtain ⟨numbered, found', numbers⟩ := getElem?_of_forall₂
    wellFormed.numbers (by rw [Array.getElem?_toList]; exact found)
  exact ⟨numbered, by simpa using found', numbers⟩

theorem known (wellFormed : grammar.WellFormed) {index : Nat}
    {numbered : NumberedProduction}
    (found : grammar.numbered[index]? = some numbered) :
    numbered.lhs < grammar.symbolCount ∧
      ∀ symbol ∈ numbered.rhs, symbol < grammar.symbolCount := by
  obtain ⟨production, _, numbers⟩ := wellFormed.exists_production found
  exact numbers.known

theorem symbolsKnown (wellFormed : grammar.WellFormed) : grammar.SymbolsKnown :=
  fun _ listed => by
    obtain ⟨index, found⟩ := Array.mem_iff_getElem?.mp listed
    exact wellFormed.known found

theorem mem_lexicalFor_iff (wellFormed : grammar.WellFormed) {index : Nat}
    {word : String} :
    index ∈ grammar.lexicalFor word ↔
      ∃ lhs < grammar.symbolCount,
        grammar.numbered[index]? = some ⟨lhs, []⟩ ∧
        grammar.productions[index]? =
          some ⟨grammar.symbolName lhs, [.terminal word]⟩ := by
  simp only [wellFormed.lexicalFor_eq, mem_findIdxs_iff, decide_eq_true_eq]
  constructor
  · rintro ⟨production, found, produced⟩
    rw [Array.getElem?_toList] at found
    obtain ⟨numbered, found', numbers⟩ := wellFormed.exists_numbered found
    cases numbers with
    | lexical word' known =>
        simp only [Production.word?, Option.some.injEq] at produced
        subst word'
        exact ⟨_, known, found', found⟩
    | @syntactic lhs rhs known nonempty knownRhs =>
        rcases rhs with _ | ⟨first, _ | ⟨second, rest⟩⟩ <;>
          simp [Production.word?] at produced
  · rintro ⟨lhs, _, _, found⟩
    exact ⟨_, by rw [Array.getElem?_toList]; exact found, rfl⟩

theorem production_of_lexical (wellFormed : grammar.WellFormed) {index lhs : Nat}
    {word : String} (numbered : grammar.numbered[index]? = some ⟨lhs, []⟩)
    (listed : index ∈ grammar.lexicalFor word) :
    grammar.productions[index]? =
      some ⟨grammar.symbolName lhs, [.terminal word]⟩ := by
  obtain ⟨lhs', _, numbered', found⟩ := wellFormed.mem_lexicalFor_iff.mp listed
  rw [(numbered_inj numbered numbered').1, found]

theorem production_of_syntactic (wellFormed : grammar.WellFormed)
    {index lhs : Nat} {rhs : List Nat} (nonempty : rhs ≠ [])
    (numbered : grammar.numbered[index]? = some ⟨lhs, rhs⟩) :
    grammar.productions[index]? =
      some ⟨grammar.symbolName lhs,
        rhs.map fun symbol => .nonterminal (grammar.symbolName symbol)⟩ := by
  obtain ⟨production, found, numbers⟩ := wellFormed.exists_production numbered
  cases numbers with
  | lexical => exact absurd rfl nonempty
  | syntactic => exact found

theorem production_cases (wellFormed : grammar.WellFormed) {index : Nat}
    {production : Production}
    (found : grammar.productions[index]? = some production) :
    ∃ lhs, lhs < grammar.symbolCount ∧
      ((∃ word, grammar.numbered[index]? = some ⟨lhs, []⟩ ∧
          index ∈ grammar.lexicalFor word ∧
          production = ⟨grammar.symbolName lhs, [.terminal word]⟩) ∨
        ∃ rhs, grammar.numbered[index]? = some ⟨lhs, rhs⟩ ∧ rhs ≠ [] ∧
          production = ⟨grammar.symbolName lhs,
            rhs.map fun symbol =>
              .nonterminal (grammar.symbolName symbol)⟩) := by
  obtain ⟨numbered, found', numbers⟩ := wellFormed.exists_numbered found
  cases numbers with
  | @lexical lhs word known =>
      exact ⟨lhs, known, .inl ⟨word, found',
        wellFormed.mem_lexicalFor_iff.mpr ⟨lhs, known, found', found⟩, rfl⟩⟩
  | @syntactic lhs rhs known nonempty =>
      exact ⟨lhs, known, .inr ⟨rhs, found', nonempty, rfl⟩⟩

theorem rhs_ne_nil (wellFormed : grammar.WellFormed)
    {production : Production} (listed : production ∈ grammar.productions) :
    production.rhs ≠ [] := by
  obtain ⟨index, found⟩ := Array.mem_iff_getElem?.mp listed
  obtain ⟨_, _, ⟨_, _, _, rfl⟩ | ⟨_, _, nonempty, rfl⟩⟩ :=
    wellFormed.production_cases found
  · simp
  · simpa using nonempty

theorem knowsWord_of_mem (wellFormed : grammar.WellFormed) {lhs word : String}
    (listed : ⟨lhs, [.terminal word]⟩ ∈ grammar.productions) :
    grammar.knowsWord word = true := by
  obtain ⟨index, found⟩ := Array.mem_iff_getElem?.mp listed
  obtain ⟨lhs', _, ⟨word', _, lexical, shape⟩ | ⟨rhs, _, _, shape⟩⟩ :=
    wellFormed.production_cases found
  · injection shape with _ words
    injection words with sameWord
    obtain rfl := Symbol.terminal.inj sameWord
    rw [lexicalFor] at lexical
    rw [knowsWord]
    cases found : grammar.lexicon.lookup word with
    | none => simp [found] at lexical
    | some indices => rfl
  · rcases rhs with _ | ⟨first, rest⟩ <;> simp at shape

end WellFormed

end Grammar

end Constituency
