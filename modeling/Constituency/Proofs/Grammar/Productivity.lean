import Constituency.Proofs.Grammar.Verdict

/-!
# The check for unproductive nonterminals

The nonterminals that derive words are marked in rounds through the productions,
until a round marks no other one.  The rounds settle on every grammar, and what
they have marked then are just the nonterminals that derive some sentence of one
or more words.  The check names the first of the others, in the order in which
the nonterminals are defined.
-/

namespace Constituency

/-- The nonterminal derives a sentence of one or more words. -/
def DerivesWords (productions : List Production) (name : String) : Prop :=
  ∃ sentence, sentence ≠ [] ∧ Yields productions [.nonterminal name] sentence

/-- The name is that of the first defined nonterminal that derives no words. -/
def FirstUnproductive (productions : List Production) (name : String) : Prop :=
  ∃ before production after,
    productions = before ++ production :: after ∧ production.lhs = name ∧
    (∀ earlier ∈ before, DerivesWords productions earlier.lhs) ∧
    ¬ DerivesWords productions name

variable {start name : String} {productions : List Production}

theorem derivesWords_iff
    (shaped : ∀ production ∈ productions, production.WellShaped) :
    DerivesWords productions name ↔ Productive productions name := by
  constructor
  · rintro ⟨sentence, _, yields⟩
    exact ⟨sentence, yields⟩
  · rintro ⟨sentence, yields⟩
    have words := yields.length_le fun production member =>
      (shaped production member).rhs_ne_nil
    exact ⟨sentence, List.length_pos_iff.mp words, yields⟩

open Classical in
theorem firstUnproductive_iff
    (shaped : ∀ production ∈ productions, production.WellShaped) :
    FirstUnproductive productions name ↔
      (productions.find? fun production =>
        ¬ Productive productions production.lhs).map (·.lhs) = some name := by
  rw [Option.map_eq_some_iff]
  simp only [← derivesWords_iff shaped, List.find?_eq_some_iff_append,
    decide_eq_true_eq, decide_not, Bool.not_not]
  constructor
  · rintro ⟨before, production, after, divided, rfl, earlier, wordless⟩
    exact ⟨production, ⟨by simpa using wordless, before, after, divided,
      by simpa using earlier⟩, rfl⟩
  · rintro ⟨production, ⟨wordless, before, after, divided, earlier⟩, rfl⟩
    exact ⟨before, production, after, divided, rfl, by simpa using earlier,
      by simpa using wordless⟩

theorem exists_firstUnproductive (defined : Defines productions name)
    (wordless : ¬ DerivesWords productions name) :
    ∃ other, FirstUnproductive productions other := by
  have fails : ¬ ∀ production ∈ productions,
      DerivesWords productions production.lhs := by
    intro each
    obtain ⟨production, listed, rfl⟩ := defined
    exact wordless (each production listed)
  obtain ⟨before, production, after, divided, earlier, wordless⟩ :=
    exists_first_without fails
  exact ⟨_, before, production, after, divided, rfl, earlier, wordless⟩

namespace FirstUnproductive

theorem wordless (first : FirstUnproductive productions name) :
    ¬ DerivesWords productions name := by
  obtain ⟨_, _, _, _, _, _, wordless⟩ := first
  exact wordless

theorem defined (first : FirstUnproductive productions name) :
    Defines productions name := by
  obtain ⟨_, production, _, divided, rfl, _⟩ := first
  exact ⟨production, by simp [divided], rfl⟩

end FirstUnproductive

namespace Grammar

section Numbered

variable {grammar : Grammar}
variable (numbers : List.Forall₂ grammar.Numbers productions
  grammar.numbered.toList)

include numbers in
theorem lt_symbolCount_of_mem_productive {symbol : Nat}
    (marked : symbol ∈ grammar.productive) : symbol < grammar.symbolCount := by
  cases HornClause.mem_closure_iff.mp marked with
  | given member => simp at member
  | rule listed _ =>
      obtain ⟨numbered, numberedListed, rfl⟩ := List.mem_map.mp listed
      obtain ⟨_, _, beside⟩ := exists_production_of_mem numbers numberedListed
      exact beside.known.1

include numbers in
/-- The rounds settle after a number of passes that the productions alone
decide, and at most one more than there are productions. -/
theorem exists_settles_productive :
    ∃ passes ≤ productions.length + 1, ∀ made marked,
      HornClause.Settles grammar.productivityClauses made [] marked ↔
        made = passes ∧ marked = grammar.productive := by
  obtain ⟨passes, bounded, course⟩ :=
    HornClause.settles_closure grammar.productivityClauses []
  have lengths : grammar.productivityClauses.length = productions.length := by
    rw [productivityClauses, List.length_map, numbers.length_eq]
  refine ⟨passes, lengths ▸ bounded, fun made marked => ⟨?_, ?_⟩⟩
  · exact fun other => other.unique course
  · rintro ⟨rfl, rfl⟩
    exact course

end Numbered

/-- The check for unproductive nonterminals is exact.  Its rounds settle, what
they mark are the nonterminals that derive words, and the check names the first
nonterminal that is not marked. -/
theorem unproductive?_exact (closed : Closed start productions) :
    ∃ grammar, index start productions = .ok grammar ∧
      (∃ passes ≤ productions.length + 1, ∀ made marked,
        HornClause.Settles grammar.productivityClauses made [] marked ↔
          made = passes ∧ marked = grammar.productive) ∧
      (∀ symbol ∈ grammar.productive, symbol < grammar.symbolCount) ∧
      (∀ name, Defines productions name →
        ∃ symbol, grammar.symbol? name = some symbol ∧
          (symbol ∈ grammar.productive ↔ DerivesWords productions name)) ∧
      ((∃ symbol, grammar.unproductive? = some symbol) ↔
        ∃ name, Defines productions name ∧ ¬ DerivesWords productions name) ∧
      (∀ name, grammar.unproductive?.map grammar.symbolName = some name ↔
        FirstUnproductive productions name) ∧
      ∀ name, ofProductions start productions = .error (.unproductive name) ↔
        (∀ other, ¬ UnitCycle productions other) ∧
          FirstUnproductive productions name := by
  obtain ⟨grammar, indexed, indexes, numbers⟩ := exists_index_of_closed closed
  have namesFirst : ∀ name,
      grammar.unproductive?.map grammar.symbolName = some name ↔
        FirstUnproductive productions name := by
    intro name
    rw [unproductive?_eq indexes numbers,
      firstUnproductive_iff closed.wellShaped]
  refine ⟨grammar, indexed, exists_settles_productive numbers,
    fun _ => lt_symbolCount_of_mem_productive numbers, ?_, ⟨?_, ?_⟩,
    namesFirst, fun name => ⟨?_, ?_⟩⟩
  · intro name defined
    obtain ⟨symbol, known, rfl⟩ := (defines_iff_of_indexes indexes).mp defined
    have numberOf := (symbol?_eq_some_iff indexes.inverts).mpr
      ⟨known, rfl⟩
    refine ⟨symbol, numberOf, ?_⟩
    rw [mem_productive_iff indexes numbers known,
      derivesWords_iff closed.wellShaped]
  · rintro ⟨symbol, found⟩
    have first := (namesFirst (grammar.symbolName symbol)).mp (by simp [found])
    exact ⟨_, first.defined, first.wordless⟩
  · rintro ⟨name, defined, wordless⟩
    obtain ⟨other, first⟩ := exists_firstUnproductive defined wordless
    obtain ⟨symbol, found, _⟩ :=
      Option.map_eq_some_iff.mp ((namesFirst other).mpr first)
    exact ⟨symbol, found⟩
  · intro resultEq
    have acyclic := (acyclic_of_unproductive_error resultEq).1
    rw [ofProductions_eq_unproductive_iff acyclic] at resultEq
    exact ⟨acyclic.noUnitCycle,
      (firstUnproductive_iff closed.wellShaped).mpr resultEq⟩
  · rintro ⟨noCycle, first⟩
    rw [ofProductions_eq_unproductive_iff ⟨closed, noCycle⟩]
    exact (firstUnproductive_iff closed.wellShaped).mp first

/-- Productions of which two would have to justify each other, and whose start
symbol is defined before the word that it needs. -/
def mutualProductions : List Production :=
  [⟨"S", [.nonterminal "N", .nonterminal "N"]⟩,
    ⟨"A", [.nonterminal "B", .nonterminal "S"]⟩,
    ⟨"B", [.nonterminal "A", .nonterminal "S"]⟩, ⟨"N", [.terminal "x"]⟩]

theorem closed_mutualProductions : Closed "S" mutualProductions where
  nonempty := by decide
  wellShaped := by decide
  startDefined :=
    ⟨⟨"S", [.nonterminal "N", .nonterminal "N"]⟩, by decide, rfl⟩
  allDefined := by simp [AllDefined, Defines, mutualProductions]

theorem unproductive?_exact_mutualProductions :
    ∃ grammar, index "S" mutualProductions = .ok grammar ∧
      grammar.unproductive?.map grammar.symbolName = some "A" ∧
      FirstUnproductive mutualProductions "A" ∧
      ofProductions "S" mutualProductions = .error (.unproductive "A") := by
  have resultEq : ofProductions "S" mutualProductions =
      .error (.unproductive "A") := by decide +kernel
  obtain ⟨grammar, indexed, _, _, _, _, namesFirst, refused_iff⟩ :=
    unproductive?_exact closed_mutualProductions
  have first := ((refused_iff "A").mp resultEq).2
  exact ⟨grammar, indexed, (namesFirst "A").mpr first, first, resultEq⟩

end Grammar

end Constituency
