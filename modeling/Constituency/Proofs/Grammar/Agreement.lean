import Constituency.Proofs.Grammar.Reachable

/-!
# The indexes of a grammar and its productions

Beside its list of productions a grammar holds the nonterminals with their
numbers, the productions of each nonterminal and of each word, and the numbered
productions.  In a grammar that has been built each of these says just what the
list says, for every string, and building the grammar again from the list gives
the same grammar.
-/

namespace Constituency

namespace Grammar

/-- The numbered form of a production has the numbers of the nonterminals on both
of its sides in their order, and nothing on the right just if the production is
lexical. -/
structure Compiles (grammar : Grammar) (production : Production)
    (numbered : NumberedProduction) : Prop where
  lhs_eq : grammar.symbol? production.lhs = some numbered.lhs
  rhs_eq : (production.rhs.filter Symbol.isNonterminal).map
    (grammar.symbol? ·.text) = numbered.rhs.map some
  rhs_eq_nil_iff : numbered.rhs = [] ↔ production.isLexical = true
  lhs_lt : numbered.lhs < grammar.symbolCount
  rhs_lt : ∀ symbol ∈ numbered.rhs, symbol < grammar.symbolCount

/-- Every index of a grammar says just what its list of productions says. -/
structure Agrees (grammar : Grammar) : Prop where
  productions_nodup : grammar.productions.toList.Nodup
  nonterminals_nodup : grammar.nonterminals.toList.Nodup
  /-- The nonterminals are the left-hand sides at their first occurrences. -/
  nonterminals_eq : grammar.nonterminals.toList =
    (grammar.productions.toList.map (·.lhs)).eraseDups
  symbol?_eq_some_iff : ∀ name symbol, grammar.symbol? name = some symbol ↔
    grammar.nonterminals[symbol]? = some name
  productionsFor_eq : ∀ name, grammar.productionsFor name =
    grammar.productions.toList.filter (·.lhs = name)
  pairwise_lexicalFor : ∀ word, (grammar.lexicalFor word).Pairwise (· < ·)
  mem_lexicalFor_iff : ∀ word index, index ∈ grammar.lexicalFor word ↔
    ∃ production, grammar.productions[index]? = some production ∧
      production.rhs = [.terminal word]
  knowsWord_iff : ∀ word,
    grammar.knowsWord word = true ↔ grammar.lexicalFor word ≠ []
  isTerminal_iff : ∀ word,
    grammar.isTerminal (.terminal word) = true ↔ grammar.lexicalFor word ≠ []
  size_numbered : grammar.numbered.size = grammar.productions.size
  compiles : ∀ (index : Nat) production numbered,
    grammar.productions[index]? = some production →
    grammar.numbered[index]? = some numbered →
    grammar.Compiles production numbered

variable {grammar : Grammar} {start : String} {productions : List Production}
variable {production : Production} {numbered : NumberedProduction}

theorem Numbers.compiles (numbers : grammar.Numbers production numbered)
    (inverts : Inverts grammar.ids grammar.nonterminals) :
    grammar.Compiles production numbered := by
  have numberOf : ∀ symbol < grammar.symbolCount,
      grammar.symbol? (grammar.symbolName symbol) = some symbol :=
    fun symbol known => (Grammar.symbol?_eq_some_iff inverts).mpr ⟨known, rfl⟩
  obtain ⟨lhsKnown, rhsKnown⟩ := numbers.known
  refine ⟨numbers.lhs_eq ▸ numberOf _ lhsKnown, ?_, ?_, lhsKnown, rhsKnown⟩
  · cases numbers with
    | lexical word known => rfl
    | @syntactic lhs rhs known nonempty knownRhs =>
        have names : (rhs.map fun symbol =>
            Symbol.nonterminal (grammar.symbolName symbol)).filter
              Symbol.isNonterminal =
            rhs.map fun symbol =>
              .nonterminal (grammar.symbolName symbol) := by
          simp [Symbol.isNonterminal]
        rw [names, List.map_map]
        exact List.map_congr_left fun symbol member =>
          numberOf symbol (knownRhs symbol member)
  · cases numbers with
    | lexical word known => exact iff_of_true rfl rfl
    | @syntactic lhs rhs known nonempty knownRhs =>
        refine iff_of_false nonempty ?_
        rcases rhs with _ | ⟨first, _ | ⟨second, rest⟩⟩ <;>
          simp [Production.isLexical, Symbol.isTerminal]

theorem filterMap_findIdxs {α : Type} (selects : α → Bool) (elements : List α) :
    (elements.findIdxs selects).filterMap (elements[·]?) =
      elements.filter selects := by
  have placed : ∀ entry ∈ elements.zipIdx,
      (bif selects entry.1 then some entry.2 else none).bind (elements[·]?) =
        if selects entry.1 then some entry.1 else none := by
    rintro ⟨element, place⟩ member
    have found := List.mk_mem_zipIdx_iff_getElem?.mp member
    cases selects element with
    | true => exact found
    | false => rfl
  calc (elements.findIdxs selects).filterMap (elements[·]?)
    _ = elements.zipIdx.filterMap fun entry =>
          if selects entry.1 then some entry.1 else none := by
        rw [List.findIdxs_eq_filterMap_zipIdx, List.filterMap_filterMap]
        exact List.filterMap_congr placed
    _ = (elements.zipIdx.map Prod.fst).filterMap fun element =>
          if selects element then some element else none := by
        rw [List.filterMap_map]
        rfl
    _ = elements.filter selects := by
        rw [List.zipIdx_map_fst, ← List.filterMap_eq_filter]
        rfl

theorem productionsFor_eq_filter
    (indexes : Indexes grammar start productions) (name : String) :
    grammar.productionsFor name = productions.filter (·.lhs = name) := by
  rw [productionsFor]
  cases found : grammar.symbol? name with
  | none =>
      rw [eq_comm, List.filter_eq_nil_iff]
      intro production listed same
      have defined : Defines productions name :=
        ⟨production, listed, by simpa using same⟩
      obtain ⟨symbol, known, nameEq⟩ :=
        (defines_iff_of_indexes indexes).mp defined
      have found' := (symbol?_eq_some_iff indexes.inverts).mpr ⟨known, nameEq⟩
      simp [found'] at found
  | some symbol =>
      obtain ⟨known, rfl⟩ := (symbol?_eq_some_iff indexes.inverts).mp found
      have kept : ∀ index : Nat,
          grammar.productions[index]? = productions[index]? := by
        intro index
        rw [← Array.getElem?_toList, indexes.productions_eq]
      simp only [byLhs_eq_findIdxs indexes known, kept, filterMap_findIdxs]

theorem word?_eq_some_iff {word : String} :
    production.word? = some word ↔ production.rhs = [.terminal word] := by
  rw [Production.word?]
  split
  · rename_i other rhsEq
    simp [rhsEq]
  · rename_i noWord
    simpa using noWord word

theorem agrees_of_accepted
    (accepted : ofProductions start productions = .ok grammar) :
    grammar.Agrees := by
  have indexes := indexes_of_accepted accepted
  have wellFormed := wellFormed_of_ofProductions accepted
  have knows := knowsWord_iff_lexicalFor_ne_nil indexes
  refine ⟨wellFormed.productions_nodup, wellFormed.inverts.nodup,
    indexes.nonterminals_eq, wellFormed.inverts,
    productionsFor_eq_filter indexes, ?_, ?_, knows, knows, ?_, ?_⟩
  · intro word
    rw [wellFormed.lexicalFor_eq]
    exact List.pairwise_findIdxs
  · intro word index
    simp only [wellFormed.lexicalFor_eq, mem_findIdxs_iff, decide_eq_true_eq,
      word?_eq_some_iff, Array.getElem?_toList]
  · have sameLength := wellFormed.numbers.length_eq
    rw [Array.length_toList, Array.length_toList] at sameLength
    exact sameLength.symm
  · intro index production numbered found numberedFound
    obtain ⟨numbered', found', numbers⟩ := wellFormed.exists_numbered found
    obtain rfl := Option.some.inj (numberedFound.symm.trans found')
    exact numbers.compiles wellFormed.inverts

/-- The indexes of a built grammar agree with its productions, and building it
again from them gives the same grammar. -/
theorem indexes_agree
    (accepted : ofProductions start productions = .ok grammar) :
    grammar.Agrees ∧
      ofProductions grammar.start grammar.productions.toList = .ok grammar :=
  ⟨agrees_of_accepted accepted, ofProductions_again accepted⟩

/-- A grammar in which one string is a word and a nonterminal, and the empty
string is too. -/
def sharedNames : Grammar where
  start := "x"
  productions :=
    #[⟨"x", [.nonterminal "x", .nonterminal ""]⟩, ⟨"", [.terminal "x"]⟩,
      ⟨"x", [.terminal "x"]⟩, ⟨"", [.terminal ""]⟩]
  nonterminals := #["x", ""]
  ids := [("", 1), ("x", 0)]
  byLhs := #[[0, 2], [1, 3]]
  lexicon := [("x", [1, 2]), ("", [3])]
  numbered := #[⟨0, [0, 1]⟩, ⟨1, []⟩, ⟨0, []⟩, ⟨1, []⟩]

/-- The word and the nonterminal are told apart. -/
theorem indexes_agree_sharedNames :
    ofProductions "x" sharedNames.productions.toList = .ok sharedNames ∧
      (∀ index, index ∈ sharedNames.lexicalFor "x" ↔
        ∃ production, sharedNames.productions[index]? = some production ∧
          production.rhs = [.terminal "x"]) ∧
      sharedNames.productionsFor "x" =
        [⟨"x", [.nonterminal "x", .nonterminal ""]⟩, ⟨"x", [.terminal "x"]⟩] ∧
      sharedNames.symbol? "" = some 1 ∧ sharedNames.knowsWord "" = true := by
  have accepted : ofProductions "x" sharedNames.productions.toList =
      .ok sharedNames := by
    decide +kernel
  obtain ⟨agrees, _⟩ := indexes_agree accepted
  refine ⟨accepted, agrees.mem_lexicalFor_iff "x", ?_, ?_, ?_⟩
  · rw [agrees.productionsFor_eq]
    decide
  · rw [agrees.symbol?_eq_some_iff]
    decide
  · rw [agrees.knowsWord_iff]
    decide

end Grammar

end Constituency
