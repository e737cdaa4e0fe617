import Constituency.Proofs.Derivation.Occurrence
import Constituency.Proofs.Grammar.Reachable
import Constituency.Proofs.Parse.Outcome
import Constituency.Proofs.ParseTree.Basic

/-!
# Every production is of use

A production of a grammar whose nonterminal is not reported as unreachable takes
part in a tree of some sentence.  The sentence is read off a tree around one that
has the production at its root, and parsing it finds that tree.
-/

namespace Constituency

namespace ParseTree

/-- The node is a branch over the symbols on the right of the production. -/
def BuiltBy (production : Production) (node : ParseTree) : Prop :=
  node.label? = some production.lhs ∧
    node.children.map (·.bare.symbol) = production.rhs

theorem exists_mem_preorder {tree : ParseTree} {part : BareTree}
    (occurs : part.Occurs tree.bare) :
    ∃ node ∈ tree.preorder, node.bare = part := by
  generalize bareEq : tree.bare = whole at occurs
  induction occurs generalizing tree with
  | root =>
      refine ⟨tree, ?_, bareEq⟩
      rw [preorder_eq]
      exact List.mem_cons_self
  | child member _ ih =>
      cases tree with
      | leaf => simp at bareEq
      | branch label span children =>
          rw [bare_branch] at bareEq
          obtain ⟨rfl, rfl⟩ := BareTree.branch.inj bareEq
          obtain ⟨kid, kidMember, kidEq⟩ := List.mem_map.mp member
          obtain ⟨node, nodeMember, nodeEq⟩ := ih kidEq
          refine ⟨node, ?_, nodeEq⟩
          rw [preorder_eq]
          apply List.mem_cons_of_mem
          exact mem_preorderList.mpr ⟨kid, kidMember, nodeMember⟩

theorem builtBy_of_bare_eq {production : Production} {node : ParseTree}
    {children : List BareTree}
    (bareEq : node.bare = .branch production.lhs children)
    (roots : children.map BareTree.symbol = production.rhs) :
    node.BuiltBy production := by
  cases node with
  | leaf => simp at bareEq
  | branch label span kids =>
      rw [bare_branch] at bareEq
      obtain ⟨rfl, rfl⟩ := BareTree.branch.inj bareEq
      refine ⟨rfl, ?_⟩
      rw [← roots, List.map_map]
      rfl

end ParseTree

namespace Grammar

variable {start : String} {productions : List Production} {grammar : Grammar}
variable {words : List String} {limit : Nat} {trees : List ParseTree}

theorem produces_of_conforms (wellFormed : grammar.WellFormed)
    {tree : BareTree} (conforms : tree.Conforms grammar) {name : String}
    (root : tree.symbol = .nonterminal name) :
    ∀ word ∈ tree.words, grammar.Produces word := by
  induction conforms generalizing name with
  | leaf => simp [BareTree.symbol] at root
  | @branch label children listed below ih =>
      intro word member
      rw [BareTree.words_branch] at member
      obtain ⟨child, childMember, wordMember⟩ := List.mem_flatMap.mp member
      cases child with
      | branch childLabel grandchildren =>
          exact ih _ childMember rfl word wordMember
      | leaf childWord =>
          obtain rfl := List.mem_singleton.mp wordMember
          have onRight : .terminal word ∈ children.map BareTree.symbol :=
            List.mem_map.mpr ⟨_, childMember, rfl⟩
          obtain ⟨index, found⟩ := Array.mem_iff_getElem?.mp listed
          obtain ⟨lhs, _, ⟨word', _, _, shape⟩ | ⟨rhs, _, _, shape⟩⟩ :=
            wellFormed.production_cases found
          · rw [shape] at listed
            rw [(Production.mk.inj shape).2] at onRight
            obtain rfl := Symbol.terminal.inj (List.mem_singleton.mp onRight)
            exact ⟨_, listed⟩
          · rw [(Production.mk.inj shape).2] at onRight
            simp at onRight

theorem mem_map_bare_iff
    (accepted : ofProductions start productions = .ok grammar)
    (parsed : grammar.parse words limit = .ok trees) {tree : BareTree} :
    tree ∈ trees.map ParseTree.bare ↔
      tree.Derives grammar grammar.start words := by
  rw [map_bare_of_parse_eq_ok parsed]
  exact mem_rootTrees_fill_iff (wellFormed_of_ofProductions accepted)

theorem allProductive_of_accepted
    (accepted : ofProductions start productions = .ok grammar) :
    BareTree.AllProductive grammar := by
  have acceptable := acceptable_of_accepted accepted
  intro production listed name member
  apply acceptable.productive
  exact acceptable.allDefined production listed name member

/-- A sentence is parsed with a node that a reached production has built. -/
theorem exists_parse_of_reaches
    (accepted : ofProductions start productions = .ok grammar)
    {production : Production} (kept : production ∈ grammar.productions)
    (reached : Reaches grammar.productions.toList grammar.start
      production.lhs) :
    ∃ words, (∀ word ∈ words, grammar.knowsWord word = true) ∧
      ∃ trees, grammar.parse words (2 ^ 64 - 1) = .ok trees ∧
        ∃ tree ∈ trees, ∃ node ∈ tree.preorder, node.BuiltBy production := by
  have allProductive := allProductive_of_accepted accepted
  obtain ⟨children, roots, partConforms⟩ :=
    BareTree.exists_tree_of_production allProductive
      (Array.mem_toList_iff.mpr kept)
  obtain ⟨whole, conforms, root, occurs⟩ :=
    BareTree.exists_tree_around allProductive reached partConforms rfl
  have known := produces_of_conforms (wellFormed_of_ofProductions accepted)
    conforms root
  obtain ⟨trees, parsed, _⟩ :=
    exists_parse_eq_ok accepted known (.inl (Nat.le_refl _))
  have derives : whole.Derives grammar grammar.start whole.words :=
    ⟨conforms, root, rfl⟩
  obtain ⟨tree, treeMember, bareEq⟩ :=
    List.mem_map.mp ((mem_map_bare_iff accepted parsed).mpr derives)
  obtain ⟨node, nodeMember, nodeEq⟩ :=
    ParseTree.exists_mem_preorder (bareEq ▸ occurs)
  refine ⟨whole.words, ?_, trees, parsed, tree, treeMember, node, nodeMember,
    ParseTree.builtBy_of_bare_eq nodeEq roots⟩
  intro word member
  exact (knowsWord_iff_produces accepted word).mpr (known word member)

/-- An accepted grammar has no production without use, unless its nonterminal is
reported as unreachable, and it parses some sentence. -/
theorem every_production_used
    (accepted : ofProductions start productions = .ok grammar) :
    (∀ production ∈ grammar.productions,
      .unreachable production.lhs ∉ (build start productions).events →
      ∃ words, (∀ word ∈ words, grammar.knowsWord word = true) ∧
        ∃ trees, grammar.parse words (2 ^ 64 - 1) = .ok trees ∧
          ∃ tree ∈ trees, ∃ node ∈ tree.preorder,
            node.BuiltBy production) ∧
      ∃ words trees, (∀ word ∈ words, grammar.knowsWord word = true) ∧
        grammar.parse words (2 ^ 64 - 1) = .ok trees ∧ trees ≠ [] := by
  constructor
  · intro production kept notReported
    exact exists_parse_of_reaches accepted kept
      (reaches_of_not_reported accepted kept notReported)
  · obtain ⟨production, listed, lhsEq⟩ :=
      (acceptable_of_accepted accepted).startDefined
    have reached : Reaches grammar.productions.toList grammar.start
        production.lhs := lhsEq ▸ .refl
    obtain ⟨words, known, trees, parsed, tree, member, _⟩ :=
      exists_parse_of_reaches accepted (Array.mem_toList_iff.mp listed) reached
    exact ⟨words, trees, known, parsed, List.ne_nil_of_mem member⟩

theorem every_production_used_sequences :
    .unreachable "N" ∉ (build "S" sequences.productions.toList).events ∧
      ∃ words trees, sequences.parse words (2 ^ 64 - 1) = .ok trees ∧
        ∃ tree ∈ trees, ∃ node ∈ tree.preorder,
          node.BuiltBy ⟨"N", [.terminal "x"]⟩ := by
  have notReported :
      .unreachable "N" ∉ (build "S" sequences.productions.toList).events := by
    decide +kernel
  obtain ⟨used, _⟩ := every_production_used ofProductions_sequences
  obtain ⟨words, _, trees, parsed, node⟩ :=
    used ⟨"N", [.terminal "x"]⟩ (by decide +kernel) notReported
  exact ⟨notReported, words, trees, parsed, node⟩

end Grammar

end Constituency
