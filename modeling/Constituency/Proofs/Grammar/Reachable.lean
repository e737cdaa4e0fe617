import Constituency.Proofs.Derivation.Reach
import Constituency.Proofs.Grammar.Verdict
import Constituency.Proofs.Marking

/-!
# The nonterminals that are reported as unreachable

The search from the start symbol follows the productions by the numbers of their
nonterminals.  Paths between numbers are paths between names, so it marks just the
nonterminals that can be reached, and what is reported when a grammar is built are
the defined nonterminals that cannot be.  As no production belongs to two
nonterminals, all pushes together are as many as there are nonterminals on the
right of productions.
-/

namespace Constituency

namespace Grammar

variable {start name : String} {productions : List Production}
variable {grammar : Grammar} {symbol target : Nat}

section Numbered

variable (indexes : Indexes grammar start productions)
variable (numbers : List.Forall₂ grammar.Numbers productions
  grammar.numbered.toList)

include indexes numbers in
theorem mem_usedBy_iff :
    target ∈ grammar.usedBy symbol ↔
      ∃ (index : Nat) (rhs : List Nat),
        grammar.numbered[index]? = some ⟨symbol, rhs⟩ ∧ target ∈ rhs := by
  simp only [usedBy, List.mem_flatMap, mem_byLhs_iff indexes numbers]
  constructor
  · rintro ⟨index, ⟨rhs, found⟩, member⟩
    exact ⟨index, rhs, found, by simpa [found] using member⟩
  · rintro ⟨index, rhs, found, member⟩
    exact ⟨index, ⟨rhs, found⟩, by simpa [found] using member⟩

include indexes numbers in
theorem usedBy_lt :
    ∀ symbol < grammar.symbolCount, ∀ target ∈ grammar.usedBy symbol,
      target < grammar.symbolCount := by
  intro symbol _ target arrow
  obtain ⟨index, rhs, found, member⟩ := (mem_usedBy_iff indexes numbers).mp arrow
  obtain ⟨_, _, beside⟩ := exists_production_of_getElem? numbers found
  exact beside.known.2 target member

include indexes numbers in
theorem uses_of_arrow (arrow : Cycle.Arrow grammar.usedBy symbol target) :
    Uses productions (grammar.symbolName symbol)
      (grammar.symbolName target) := by
  obtain ⟨index, rhs, found, member⟩ := (mem_usedBy_iff indexes numbers).mp arrow
  obtain ⟨production, placed, beside⟩ :=
    exists_production_of_getElem? numbers found
  refine ⟨production, List.mem_of_getElem? placed, beside.lhs_eq, ?_⟩
  cases beside with
  | lexical => simp at member
  | syntactic => exact List.mem_map_of_mem member

include indexes numbers in
theorem exists_arrow_of_uses (known : symbol < grammar.symbolCount)
    (uses : Uses productions (grammar.symbolName symbol) name) :
    ∃ target < grammar.symbolCount, grammar.symbolName target = name ∧
      Cycle.Arrow grammar.usedBy symbol target := by
  obtain ⟨production, listed, lhsEq, member⟩ := uses
  obtain ⟨numbered, numberedListed, beside⟩ :=
    exists_numbered_of_mem numbers listed
  have sameLhs : numbered.lhs = symbol :=
    symbolName_injective indexes.inverts beside.known.1 known
      (beside.lhs_eq.symm.trans lhsEq)
  obtain ⟨target, targetListed, targetEq⟩ : ∃ target ∈ numbered.rhs,
      grammar.symbolName target = name := by
    cases beside with
    | lexical => simp at member
    | syntactic => simpa using member
  obtain ⟨index, found⟩ := List.mem_iff_getElem?.mp numberedListed
  rw [Array.getElem?_toList] at found
  exact ⟨target, beside.known.2 target targetListed, targetEq,
    (mem_usedBy_iff indexes numbers).mpr
      ⟨index, numbered.rhs, sameLhs ▸ found, targetListed⟩⟩

include indexes numbers in
/-- Paths between numbers are paths between their names. -/
theorem reflTransGen_usedBy_iff {first second : Nat}
    (firstKnown : first < grammar.symbolCount)
    (secondKnown : second < grammar.symbolCount) :
    Relation.ReflTransGen (Cycle.Arrow grammar.usedBy) first second ↔
      Reaches productions (grammar.symbolName first)
        (grammar.symbolName second) := by
  constructor
  · intro path
    exact path.lift grammar.symbolName
      fun _ _ arrow => uses_of_arrow indexes numbers arrow
  · intro reached
    have path : ∀ name, Reaches productions (grammar.symbolName first) name →
        ∃ symbol < grammar.symbolCount, grammar.symbolName symbol = name ∧
          Relation.ReflTransGen (Cycle.Arrow grammar.usedBy) first symbol := by
      intro name reached
      induction reached with
      | refl => exact ⟨first, firstKnown, rfl, .refl⟩
      | tail _ uses ih =>
          obtain ⟨middle, middleKnown, rfl, path⟩ := ih
          obtain ⟨target, known, targetEq, arrow⟩ :=
            exists_arrow_of_uses indexes numbers middleKnown uses
          exact ⟨target, known, targetEq, path.tail arrow⟩
    obtain ⟨symbol, known, same, path⟩ := path _ reached
    obtain rfl := symbolName_injective indexes.inverts known secondKnown same
    exact path

include indexes in
theorem exists_reachable_eq :
    ∃ root < grammar.symbolCount, grammar.symbolName root = grammar.start ∧
      grammar.symbol? grammar.start = some root ∧
      grammar.reachable = Marking.search grammar.usedBy
        (Array.replicate grammar.symbolCount false) [root] := by
  have defined := indexes.start_mem
  rw [← indexes.start_eq, Array.mem_iff_getElem?] at defined
  obtain ⟨root, placed⟩ := defined
  have found : grammar.symbol? grammar.start = some root :=
    (indexes.inverts grammar.start root).mpr placed
  obtain ⟨known, named⟩ := getElem?_nonterminals_eq_some_iff.mp placed
  exact ⟨root, known, named, found, by rw [reachable, found]; rfl⟩

include indexes numbers in
/-- The search marks just the nonterminals that can be reached. -/
theorem isMarked_reachable_iff (known : symbol < grammar.symbolCount) :
    Marking.isMarked grammar.reachable symbol = true ↔
      Reaches productions grammar.start (grammar.symbolName symbol) := by
  obtain ⟨root, rootKnown, rootEq, _, reachableEq⟩ := exists_reachable_eq indexes
  rw [reachableEq, Marking.isMarked_search_iff (usedBy_lt indexes numbers)
    rootKnown known, reflTransGen_usedBy_iff indexes numbers rootKnown known,
    rootEq]

include indexes in
theorem nodup_byLhs (symbol : Nat) : (grammar.byLhs.getD symbol []).Nodup := by
  by_cases known : symbol < grammar.symbolCount
  · rw [byLhs_eq_findIdxs indexes known]
    exact List.nodup_findIdxs
  · rw [byLhs_eq_nil indexes known]
    exact List.nodup_nil

include indexes numbers in
theorem flatMap_byLhs_perm :
    ((List.range grammar.symbolCount).flatMap (grammar.byLhs.getD · [])).Perm
      (List.range grammar.numbered.size) := by
  rw [List.perm_ext_iff_of_nodup ?_ List.nodup_range]
  · intro index
    simp only [List.mem_flatMap, List.mem_range, mem_byLhs_iff indexes numbers]
    constructor
    · rintro ⟨symbol, _, rhs, found⟩
      exact (Array.getElem?_eq_some_iff.mp found).1
    · intro below
      have found := Array.getElem?_eq_getElem below
      obtain ⟨_, _, beside⟩ := exists_production_of_getElem? numbers found
      exact ⟨_, beside.known.1, _, found⟩
  · refine List.nodup_flatMap.mpr ⟨fun symbol _ => nodup_byLhs indexes symbol,
      List.nodup_range.imp fun different => ?_⟩
    intro index first second
    obtain ⟨rhs, found⟩ := (mem_byLhs_iff indexes numbers).mp first
    obtain ⟨rhs', found'⟩ := (mem_byLhs_iff indexes numbers).mp second
    exact different (numbered_inj found found').1

theorem flatMap_range_getElem? {α β : Type} (elements : Array α)
    (parts : α → List β) :
    ((List.range elements.size).flatMap fun place =>
        (elements[place]?.map parts).getD []) =
      elements.toList.flatMap parts := by
  have sideBySide : ((List.range elements.size).map fun place =>
      (elements[place]?.map parts).getD []) = elements.toList.map parts := by
    apply List.ext_getElem
    · simp
    · intro place below _
      simp only [List.length_map, List.length_range] at below
      simp [below]
  rw [List.flatMap_def, List.flatMap_def, sideBySide]

include indexes numbers in
/-- All nonterminals together use as many as there are on the right of
productions. -/
theorem length_flatMap_usedBy :
    ((List.range grammar.symbolCount).flatMap grammar.usedBy).length =
      (grammar.numbered.toList.flatMap (·.rhs)).length := by
  rw [← flatMap_range_getElem? grammar.numbered,
    ← ((flatMap_byLhs_perm indexes numbers).flatMap_right _).length_eq,
    List.flatMap_assoc]
  rfl

/-- The search for what can be reached comes to an end.  It takes nodes from its
stack no more often than there are nonterminals on the right of productions, and
once more, and it marks just what can be reached. -/
structure MarksReachable (grammar : Grammar) (start : String)
    (productions : List Production) : Prop where
  exists_taken : ∃ root taken, grammar.symbol? start = some root ∧
    taken ≤ (grammar.numbered.toList.flatMap (·.rhs)).length + 1 ∧
    ∀ made marks, Marking.Takes grammar.usedBy made
        (Array.replicate grammar.symbolCount false) [root] marks ↔
      made = taken ∧ marks = grammar.reachable
  isMarked_iff : ∀ symbol < grammar.symbolCount,
    Marking.isMarked grammar.reachable symbol = true ↔
      Reaches productions start (grammar.symbolName symbol)

include indexes numbers in
theorem marksReachable : grammar.MarksReachable grammar.start productions := by
  refine ⟨?_, fun symbol => isMarked_reachable_iff indexes numbers⟩
  obtain ⟨root, _, _, found, reachableEq⟩ := exists_reachable_eq indexes
  obtain ⟨taken, few, course⟩ := Marking.takes_search grammar.usedBy
    (Array.replicate grammar.symbolCount false) [root]
  rw [Marking.pending_replicate, length_flatMap_usedBy indexes numbers] at few
  refine ⟨root, taken, found, ?_, fun made marks => ⟨fun other => ?_, ?_⟩⟩
  · rw [Nat.add_comm]
    exact few
  · rw [reachableEq]
    exact other.unique course
  · rintro ⟨rfl, rfl⟩
    rw [reachableEq]
    exact course

include indexes numbers in
theorem mem_unreachable_iff :
    name ∈ grammar.unreachable ↔
      Defines productions name ∧ ¬ Reaches productions grammar.start name := by
  simp only [unreachable, List.mem_map, List.mem_filter, List.mem_range,
    Bool.not_eq_true', ← Bool.not_eq_true, defines_iff_of_indexes indexes]
  constructor
  · rintro ⟨symbol, ⟨known, missing⟩, rfl⟩
    rw [isMarked_reachable_iff indexes numbers known] at missing
    exact ⟨⟨symbol, known, rfl⟩, missing⟩
  · rintro ⟨⟨symbol, known, rfl⟩, notReached⟩
    rw [← isMarked_reachable_iff indexes numbers known] at notReached
    exact ⟨symbol, ⟨known, notReached⟩, rfl⟩

end Numbered

section Accepted

variable (accepted : ofProductions start productions = .ok grammar)

include accepted

theorem acceptable_of_accepted :
    Acceptable grammar.start grammar.productions.toList :=
  exists_ofProductions_eq_ok_iff.mp ⟨grammar, ofProductions_again accepted⟩

theorem indexes_of_accepted :
    Indexes grammar grammar.start grammar.productions.toList := by
  have indexes := indexes_of_ofProductions accepted
  rw [indexes.start_eq, indexes.productions_eq]
  exact indexes

theorem events_eq :
    (build start productions).events =
      (keepFirst [] productions).1.map .droppedDuplicate ++ grammar.report := by
  unfold ofProductions at accepted
  unfold build at accepted ⊢
  split
  · rename_i empty
    simp [empty] at accepted
  · rename_i nonempty
    rw [if_neg nonempty] at accepted
    dsimp only at accepted ⊢
    split at accepted
    · simp at accepted
    · rename_i built found
      obtain rfl := Except.ok.inj accepted
      rfl

/-- The nonterminals that are reported are defined, but cannot be reached from the
start symbol. -/
theorem unreachable_mem_events_iff :
    .unreachable name ∈ (build start productions).events ↔
      Defines grammar.productions.toList name ∧
        ¬ Reaches grammar.productions.toList grammar.start name := by
  rw [← mem_unreachable_iff (indexes_of_accepted accepted)
    (wellFormed_of_ofProductions accepted).numbers, events_eq accepted]
  simp [report]

/-- A production that is not reported can be reached. -/
theorem reaches_of_not_reported {production : Production}
    (kept : production ∈ grammar.productions)
    (notReported : .unreachable production.lhs ∉
      (build start productions).events) :
    Reaches grammar.productions.toList grammar.start production.lhs := by
  have defined : Defines grammar.productions.toList production.lhs :=
    ⟨production, Array.mem_toList_iff.mpr kept, rfl⟩
  by_contra notReached
  exact notReported ((unreachable_mem_events_iff accepted).mpr
    ⟨defined, notReached⟩)

end Accepted

end Grammar

end Constituency
