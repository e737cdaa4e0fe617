import Constituency.Proofs.Derivation.Pruning
import Constituency.Proofs.Grammar.Pruning
import Constituency.Proofs.Parse.Outcome
import Constituency.Proofs.Parse.Placement
import Mathlib.Data.List.Sort

/-!
# Parsing without unreachable nonterminals

A grammar without the productions of the nonterminals that are reported as
unreachable parses every sentence of its words as the whole grammar does: the
derivation trees are the same and are ordered in the same way, and their spans
follow from the words.
-/

namespace Constituency

namespace Grammar

variable {start : String} {productions : List Production}
variable {grammar pruned : Grammar} {words : List String}

theorem rootTrees_of_filter (wellFormed : grammar.WellFormed)
    (prunedWellFormed : pruned.WellFormed) {keep : Production → Bool}
    (startEq : pruned.start = grammar.start)
    (productionsEq : pruned.productions.toList =
      grammar.productions.toList.filter keep)
    (prunes : Prunes pruned.productions.toList grammar.productions.toList
      grammar.start) (words : List String) :
    (Chart.fill pruned words.toArray).rootTrees =
      (Chart.fill grammar words.toArray).rootTrees := by
  have conforms : ∀ tree ∈ (Chart.fill pruned words.toArray).rootTrees,
      tree.Conforms pruned := fun tree member =>
    ((mem_rootTrees_fill_iff prunedWellFormed).mp member).conforms
  have ordered : (Chart.fill pruned words.toArray).rootTrees.Pairwise
      (BareTree.Precedes grammar) := by
    apply (pairwise_rootTrees_fill prunedWellFormed words).imp_of_mem
    intro first second member member' precedes
    exact precedes.of_filter productionsEq (conforms first member)
      (conforms second member')
  -- Strictly ordered lists with the same members are equal.
  apply ordered.eq_of_mem_iff (pairwise_rootTrees_fill wellFormed words)
  intro tree
  rw [mem_rootTrees_fill_iff prunedWellFormed,
    mem_rootTrees_fill_iff wellFormed, startEq,
    BareTree.derives_iff_of_prunes prunes]

/-- The nonterminals that are reported as unreachable have no influence on
parsing. -/
theorem parse_without_unreachable
    (accepted : ofProductions start productions = .ok grammar) :
    ∃ pruned, ofProductions grammar.start
        (grammar.unreported (build start productions).events) = .ok pruned ∧
      (∀ name, .unreachable name ∉ (build grammar.start
        (grammar.unreported (build start productions).events)).events) ∧
      ∀ (words : List String) (limit : Nat),
        (∀ word ∈ words, pruned.knowsWord word = true) →
        grammar.parse words limit = pruned.parse words limit := by
  obtain ⟨pruned, prunedEq, startEq, productionsEq, noneReported⟩ :=
    exists_pruned accepted
  refine ⟨pruned, prunedEq, noneReported, fun words limit knows => ?_⟩
  have wellFormed := wellFormed_of_ofProductions accepted
  have prunedWellFormed := wellFormed_of_ofProductions prunedEq
  have prunes : Prunes pruned.productions.toList grammar.productions.toList
      grammar.start := by
    rw [productionsEq]
    exact prunes_unreported accepted
  have prunedKnown : ∀ word ∈ words, pruned.Produces word := fun word member =>
    (knowsWord_iff_produces prunedEq word).mp (knows word member)
  have known : ∀ word ∈ words, grammar.Produces word := by
    intro word member
    obtain ⟨lhs, declared⟩ := prunedKnown word member
    rw [← Array.mem_toList_iff] at declared
    exact ⟨lhs, Array.mem_toList_iff.mp (prunes.subset declared)⟩
  rw [parse_eq_of_known accepted known, parse_eq_of_known prunedEq prunedKnown,
    (Chart.filled_fill wellFormed words.toArray).allTrees_eq,
    (Chart.filled_fill prunedWellFormed words.toArray).allTrees_eq,
    rootTrees_of_filter wellFormed prunedWellFormed startEq productionsEq prunes]

/-- A grammar of sequences of one word, with a nonterminal that cannot be
reached. -/
def detached : Grammar where
  start := "S"
  productions :=
    #[⟨"U", [.nonterminal "U", .nonterminal "S"]⟩,
      ⟨"S", [.nonterminal "S", .nonterminal "S"]⟩, ⟨"U", [.terminal "x"]⟩,
      ⟨"S", [.terminal "x"]⟩]
  nonterminals := #["U", "S"]
  ids := [("S", 1), ("U", 0)]
  byLhs := #[[0, 2], [1, 3]]
  lexicon := [("x", [2, 3])]
  numbered := #[⟨0, [0, 1]⟩, ⟨1, [1, 1]⟩, ⟨0, []⟩, ⟨1, []⟩]

def detachedWord (place : Nat) : ParseTree :=
  .branch "S" ⟨place, place + 1⟩ [.leaf "x" ⟨place, place + 1⟩]

/-- Both grammars find the same two trees, and refuse them below this limit. -/
theorem parse_without_unreachable_detached :
    ofProductions "S" detached.productions.toList = .ok detached ∧
      .unreachable "U" ∈ (build "S" detached.productions.toList).events ∧
      ∃ pruned,
        ofProductions "S" [⟨"S", [.nonterminal "S", .nonterminal "S"]⟩,
          ⟨"S", [.terminal "x"]⟩] = .ok pruned ∧
        pruned.parse ["x", "x", "x"] 2 =
          .ok [.branch "S" ⟨0, 3⟩ [detachedWord 0,
              .branch "S" ⟨1, 3⟩ [detachedWord 1, detachedWord 2]],
            .branch "S" ⟨0, 3⟩ [.branch "S" ⟨0, 2⟩
              [detachedWord 0, detachedWord 1], detachedWord 2]] ∧
        detached.parse ["x", "x", "x"] 2 = pruned.parse ["x", "x", "x"] 2 ∧
        pruned.parse ["x", "x", "x"] 1 = .error (.tooManyTrees 1) ∧
        detached.parse ["x", "x", "x"] 1 = pruned.parse ["x", "x", "x"] 1 := by
  have accepted : ofProductions "S" detached.productions.toList =
      .ok detached := by
    decide +kernel
  have left : detached.unreported
      (build "S" detached.productions.toList).events =
        [⟨"S", [.nonterminal "S", .nonterminal "S"]⟩,
          ⟨"S", [.terminal "x"]⟩] := by
    decide +kernel
  have startEq : detached.start = "S" := rfl
  obtain ⟨pruned, prunedEq, _, same⟩ := parse_without_unreachable accepted
  rw [left, startEq] at prunedEq
  have knows : pruned.knowsWord "x" = true := by
    rw [knowsWord_iff_produces prunedEq]
    refine ⟨"S", ?_⟩
    rw [← Array.mem_toList_iff,
      (indexes_of_ofProductions prunedEq).productions_eq]
    decide
  have allKnown : ∀ word ∈ ["x", "x", "x"], pruned.knowsWord word = true := by
    intro word member
    obtain rfl : word = "x" := by simpa using member
    exact knows
  have agree := fun limit => same ["x", "x", "x"] limit allKnown
  refine ⟨accepted, by decide +kernel, pruned, prunedEq, ?_, agree 2, ?_,
    agree 1⟩
  · rw [← agree]
    decide +kernel
  · rw [← agree]
    decide +kernel

end Grammar

end Constituency
