import Constituency.Proofs.Grammar.Verdict
import Constituency.Proofs.Parse.Trees

/-!
# The outcome of parsing a sentence

A sentence is refused for its first unknown word, whatever the limit is.  If all
words are known, its derivation trees are held against the limit: it is refused
for too many trees just if there are more of them than the limit, and otherwise
all of them are listed.  Trees are counted up to the greatest number that is told
apart from greater ones, so no sentence exceeds that limit.
-/

namespace Constituency

theorem ncard_setOf_mem {α : Type} {elements : List α}
    (distinct : elements.Nodup) :
    {element | element ∈ elements}.ncard = elements.length := by
  classical
  rw [← List.toFinset_card_of_nodup distinct, ← Set.ncard_coe_finset,
    List.coe_toFinset]

namespace Forest

theorem trees_eq (forest : Forest) (limit : Nat) :
    forest.trees limit =
      if limit < forest.count then
        .error (.tooManyTrees limit)
      else
        .ok forest.allTrees := by
  rw [trees, expand]
  by_cases empty : forest.isEmpty
  · -- Without a root there is nothing to count, and nothing exceeds the limit.
    have noRoot := empty
    rw [isEmpty, Option.isNone_iff_eq_none] at noRoot
    have none : forest.count = 0 := by rw [count, noRoot]
    have noTrees : forest.allTrees = [] := by rw [allTrees, noRoot]
    rw [if_pos empty, none, noTrees, if_neg (Nat.not_lt_zero limit)]
  · rw [if_neg empty]

end Forest

namespace Grammar

variable {start : String} {productions : List Production} {grammar : Grammar}
variable {words : List String} {word : String} {position limit : Nat}

/-- The derivation trees of a sentence. -/
def derivationTrees (grammar : Grammar) (words : List String) :
    Set BareTree :=
  {tree | tree.Derives grammar grammar.start words}

/-- The word at this position is the first one that no lexical production
produces. -/
structure FirstUnknown (grammar : Grammar) (words : List String)
    (word : String) (position : Nat) : Prop where
  placed : words[position]? = some word
  unknown : ¬ grammar.Produces word
  earlier : ∀ place < position, ∀ other, words[place]? = some other →
    grammar.Produces other

theorem knowsWord_iff_produces
    (accepted : ofProductions start productions = .ok grammar)
    (word : String) :
    grammar.knowsWord word = true ↔ grammar.Produces word := by
  have wellFormed := wellFormed_of_ofProductions accepted
  constructor
  · rw [knowsWord_iff_lexicalFor_ne_nil (indexes_of_ofProductions accepted)]
    intro listed
    obtain ⟨index, lexical⟩ := List.exists_mem_of_ne_nil _ listed
    obtain ⟨lhs, _, _, declared⟩ := wellFormed.mem_lexicalFor_iff.mp lexical
    exact ⟨grammar.symbolName lhs, Array.mem_of_getElem? declared⟩
  · rintro ⟨lhs, declared⟩
    exact wellFormed.knowsWord_of_mem declared

theorem unknownWord?_eq_some_iff
    (accepted : ofProductions start productions = .ok grammar)
    {error : ParseError} :
    grammar.unknownWord? words = some error ↔
      ∃ word position, grammar.FirstUnknown words word position ∧
        error = .unknownWord word position := by
  have knows_iff := knowsWord_iff_produces accepted
  rw [unknownWord?, Option.map_eq_some_iff]
  simp only [List.find?_eq_some_iff_getElem, List.getElem_zipIdx,
    List.length_zipIdx, Bool.not_eq_true', ← Bool.not_eq_true, knows_iff,
    Bool.not_not, Nat.zero_add]
  constructor
  · rintro ⟨⟨word, position⟩, ⟨unknown, place, inside, placed, before⟩, rfl⟩
    obtain ⟨rfl, rfl⟩ := Prod.mk.inj placed
    refine ⟨_, _, ⟨List.getElem?_eq_getElem inside, unknown, ?_⟩, rfl⟩
    intro earlier lower other found
    obtain ⟨_, rfl⟩ := List.getElem?_eq_some_iff.mp found
    exact before earlier lower
  · rintro ⟨word, position, first, rfl⟩
    obtain ⟨inside, placed⟩ := List.getElem?_eq_some_iff.mp first.placed
    refine ⟨⟨word, position⟩,
      ⟨first.unknown, position, inside, by rw [placed], ?_⟩, rfl⟩
    intro place lower
    exact first.earlier place lower _ (List.getElem?_eq_getElem _)

theorem known_or_firstUnknown
    (accepted : ofProductions start productions = .ok grammar)
    (words : List String) :
    (∀ word ∈ words, grammar.Produces word) ∨
      ∃ word position, grammar.FirstUnknown words word position := by
  cases search : grammar.unknownWord? words with
  | some error =>
      obtain ⟨word, position, first, _⟩ :=
        (unknownWord?_eq_some_iff accepted).mp search
      exact .inr ⟨word, position, first⟩
  | none =>
      left
      intro word member
      rw [unknownWord?, Option.map_eq_none_iff, List.find?_eq_none] at search
      obtain ⟨place, inside, rfl⟩ := List.getElem_of_mem member
      have knows := search (words[place], place)
        (List.mk_mem_zipIdx_iff_getElem?.mpr (List.getElem?_eq_getElem inside))
      rw [← knowsWord_iff_produces accepted]
      simpa using knows

theorem derivationTrees_eq (wellFormed : grammar.WellFormed)
    (words : List String) :
    grammar.derivationTrees words =
      {tree | tree ∈ (Chart.fill grammar words.toArray).rootTrees} := by
  ext tree
  exact (mem_rootTrees_fill_iff wellFormed).symm

theorem finite_derivationTrees (wellFormed : grammar.WellFormed)
    (words : List String) : (grammar.derivationTrees words).Finite := by
  rw [derivationTrees_eq wellFormed]
  exact List.finite_toSet _

theorem length_rootTrees (wellFormed : grammar.WellFormed)
    (words : List String) :
    (Chart.fill grammar words.toArray).rootTrees.length =
      (grammar.derivationTrees words).ncard := by
  have distinct := (Chart.filled_fill wellFormed words.toArray).nodup_rootTrees
  rw [derivationTrees_eq wellFormed, ncard_setOf_mem distinct]

theorem parse_of_firstUnknown
    (accepted : ofProductions start productions = .ok grammar)
    (first : grammar.FirstUnknown words word position) (limit : Nat) :
    grammar.parse words limit = .error (.unknownWord word position) := by
  have search := (unknownWord?_eq_some_iff accepted).mpr ⟨_, _, first, rfl⟩
  rw [parse_eq, forest, chart, search]
  rfl

/-- A sentence of known words has the trees of its filled chart, unless there are
too many of them. -/
theorem parse_eq_of_known
    (accepted : ofProductions start productions = .ok grammar)
    (known : ∀ word ∈ words, grammar.Produces word) (limit : Nat) :
    grammar.parse words limit =
      if limit < saturate (Chart.fill grammar words.toArray).rootTrees.length then
        .error (.tooManyTrees limit)
      else
        .ok (Forest.allTrees ⟨Chart.fill grammar words.toArray⟩) := by
  have wellFormed := wellFormed_of_ofProductions accepted
  let forest : Forest := ⟨Chart.fill grammar words.toArray⟩
  have filled : forest.chart.Filled :=
    Chart.filled_fill wellFormed words.toArray
  have outcome : grammar.parse words limit = forest.trees limit := by
    rw [parse_eq, Grammar.forest, chart_eq_ok wellFormed known]
    rfl
  rw [outcome, Forest.trees_eq, Forest.count_eq_saturate filled]

theorem parse_of_known
    (accepted : ofProductions start productions = .ok grammar)
    (known : ∀ word ∈ words, grammar.Produces word) (limit : Nat) :
    ∃ trees, trees.length = (grammar.derivationTrees words).ncard ∧
      grammar.parse words limit =
        if limit < min (grammar.derivationTrees words).ncard (2 ^ 64 - 1) then
          .error (.tooManyTrees limit)
        else
          .ok trees := by
  have counts := length_rootTrees (wellFormed_of_ofProductions accepted) words
  refine ⟨Forest.allTrees ⟨Chart.fill grammar words.toArray⟩, ?_, ?_⟩
  · rw [← counts, ← Forest.map_bare_allTrees, List.length_map]
  · rw [parse_eq_of_known accepted known, counts]
    rfl

theorem parse_eq_unknownWord_iff
    (accepted : ofProductions start productions = .ok grammar) :
    grammar.parse words limit = .error (.unknownWord word position) ↔
      grammar.FirstUnknown words word position := by
  constructor
  · intro outcome
    rcases known_or_firstUnknown accepted words with
      known | ⟨word', position', first⟩
    · obtain ⟨trees, _, decided⟩ := parse_of_known accepted known limit
      rw [decided] at outcome
      split at outcome <;> cases outcome
    · rw [parse_of_firstUnknown accepted first] at outcome
      cases outcome
      exact first
  · intro first
    exact parse_of_firstUnknown accepted first limit

theorem exists_parse_eq_unknownWord_iff
    (accepted : ofProductions start productions = .ok grammar) :
    (∃ word position,
        grammar.parse words limit = .error (.unknownWord word position)) ↔
      ∃ word ∈ words, ¬ grammar.Produces word := by
  simp only [parse_eq_unknownWord_iff accepted]
  constructor
  · rintro ⟨word, position, first⟩
    exact ⟨word, List.mem_of_getElem? first.placed, first.unknown⟩
  · rintro ⟨word, member, unknown⟩
    rcases known_or_firstUnknown accepted words with known | first
    · exact absurd (known word member) unknown
    · exact first

theorem parse_eq_tooManyTrees
    (accepted : ofProductions start productions = .ok grammar) {bound : Nat}
    (outcome : grammar.parse words limit = .error (.tooManyTrees bound)) :
    bound = limit ∧ limit < 2 ^ 64 - 1 ∧
      limit < (grammar.derivationTrees words).ncard := by
  rcases known_or_firstUnknown accepted words with
    known | ⟨word, position, first⟩
  · obtain ⟨trees, _, decided⟩ := parse_of_known accepted known limit
    rw [decided] at outcome
    split at outcome
    · rename_i exceeded
      cases outcome
      exact ⟨rfl, lt_min_iff.mp exceeded |>.symm⟩
    · cases outcome
  · rw [parse_of_firstUnknown accepted first] at outcome
    cases outcome

theorem parse_of_exceeded
    (accepted : ofProductions start productions = .ok grammar)
    (known : ∀ word ∈ words, grammar.Produces word)
    (below : limit < 2 ^ 64 - 1)
    (exceeded : limit < (grammar.derivationTrees words).ncard) :
    grammar.parse words limit = .error (.tooManyTrees limit) := by
  obtain ⟨trees, _, decided⟩ := parse_of_known accepted known limit
  rw [decided, if_pos (lt_min exceeded below)]

/-- A limit that counting cannot exceed is as good as none. -/
theorem exists_parse_eq_ok
    (accepted : ofProductions start productions = .ok grammar)
    (known : ∀ word ∈ words, grammar.Produces word)
    (within : 2 ^ 64 - 1 ≤ limit ∨
      (grammar.derivationTrees words).ncard ≤ limit) :
    ∃ trees, grammar.parse words limit = .ok trees ∧
      trees.length = (grammar.derivationTrees words).ncard := by
  obtain ⟨trees, counts, decided⟩ := parse_of_known accepted known limit
  refine ⟨trees, ?_, counts⟩
  rw [decided, if_neg]
  exact not_lt.mpr (min_le_iff.mpr within.symm)

theorem parse_of_no_tree
    (accepted : ofProductions start productions = .ok grammar)
    (known : ∀ word ∈ words, grammar.Produces word)
    (noTree : (grammar.derivationTrees words).ncard = 0) (limit : Nat) :
    grammar.parse words limit = .ok [] := by
  obtain ⟨trees, outcome, counts⟩ := @exists_parse_eq_ok _ _ _ _ limit accepted
    known (.inr (by omega))
  rw [outcome, List.length_eq_zero_iff.mp (counts.trans noTree)]

theorem parse_nil (accepted : ofProductions start productions = .ok grammar)
    (limit : Nat) : grammar.parse [] limit = .ok [] := by
  have wellFormed := wellFormed_of_ofProductions accepted
  apply parse_of_no_tree accepted (by simp)
  have noRoot : (Chart.fill grammar #[]).root? = none := by
    rw [Chart.root?, Chart.words_fill wellFormed]
    rfl
  rw [← length_rootTrees wellFormed, Chart.rootTrees, noRoot]
  rfl

/-- The outcome of parsing a sentence is decided by its first unknown word, and
if there is none, by the number of its derivation trees. -/
theorem parse_decides
    (accepted : ofProductions start productions = .ok grammar)
    (words : List String) (limit : Nat) :
    (∀ word position,
      grammar.parse words limit = .error (.unknownWord word position) ↔
        grammar.FirstUnknown words word position) ∧
    ((∃ word position,
        grammar.parse words limit = .error (.unknownWord word position)) ↔
      ∃ word ∈ words, ¬ grammar.Produces word) ∧
    ((∀ word ∈ words, grammar.Produces word) →
      (grammar.derivationTrees words).Finite ∧
      (grammar.parse words limit = .error (.tooManyTrees limit) ↔
        limit < 2 ^ 64 - 1 ∧
          limit < (grammar.derivationTrees words).ncard) ∧
      (2 ^ 64 - 1 ≤ limit ∨ (grammar.derivationTrees words).ncard ≤ limit →
        ∃ trees, grammar.parse words limit = .ok trees ∧
          trees.length = (grammar.derivationTrees words).ncard) ∧
      ((grammar.derivationTrees words).ncard = 0 →
        grammar.parse words limit = .ok [])) ∧
    (∀ bound, grammar.parse words limit = .error (.tooManyTrees bound) →
      bound = limit ∧ limit < 2 ^ 64 - 1) ∧
    grammar.parse [] limit = .ok [] := by
  refine ⟨fun _ _ => parse_eq_unknownWord_iff accepted,
    exists_parse_eq_unknownWord_iff accepted, fun known => ⟨?_, ⟨?_, ?_⟩, ?_, ?_⟩,
    ?_, parse_nil accepted limit⟩
  · exact finite_derivationTrees (wellFormed_of_ofProductions accepted) words
  · exact fun outcome => (parse_eq_tooManyTrees accepted outcome).2
  · rintro ⟨below, exceeded⟩
    exact parse_of_exceeded accepted known below exceeded
  · exact exists_parse_eq_ok accepted known
  · exact fun noTree => parse_of_no_tree accepted known noTree limit
  · intro bound outcome
    obtain ⟨boundEq, below, _⟩ := parse_eq_tooManyTrees accepted outcome
    exact ⟨boundEq, below⟩

/-- A sequence of three words has more than one tree, and a sentence with other
words is refused for the first of them, even if it has no tree. -/
theorem parse_decides_sequences :
    1 < (sequences.derivationTrees ["x", "x", "x"]).ncard ∧
      sequences.FirstUnknown ["x", "y", "z"] "y" 1 := by
  have known : ∀ word ∈ ["x", "x", "x"], sequences.Produces word :=
    produces_sequences 3
  have exceeded : sequences.parse ["x", "x", "x"] 1 =
      .error (.tooManyTrees 1) := by
    decide +kernel
  have refused : sequences.parse ["x", "y", "z"] 0 =
      .error (.unknownWord "y" 1) := by
    decide +kernel
  obtain ⟨_, _, decided, _⟩ :=
    parse_decides ofProductions_sequences ["x", "x", "x"] 1
  obtain ⟨unknown_iff, _⟩ :=
    parse_decides ofProductions_sequences ["x", "y", "z"] 0
  exact ⟨((decided known).2.1.mp exceeded).2, (unknown_iff _ _).mp refused⟩

end Grammar

end Constituency
