import Constituency.Proofs.Parse.Location
import Constituency.Proofs.ParseTree.Chunk

/-!
# Chunks of a sentence

The chunks of a parsed tree are disjoint pieces of the sentence, in the order in
which they stand there.
-/

namespace Constituency

namespace Grammar

variable {start : String} {productions : List Production} {grammar : Grammar}
variable {words : List String} {limit : Nat} {trees : List ParseTree}

/-- The chunks of a parsed tree have words, follow one another from left to right,
and each one reads as the sentence does on its span. -/
theorem parse_minimalChunks
    (accepted : ofProductions start productions = .ok grammar)
    (parsed : grammar.parse words limit = .ok trees) :
    ∀ tree ∈ trees, tree.nounChunks = tree.minimalChunks "NP" ∧
      ∀ label,
        ((tree.minimalChunks label).map ParseTree.span).Pairwise
          (fun first second =>
            first.start < second.start ∧ first.LeftOf second) ∧
        ∀ chunk ∈ tree.minimalChunks label,
          chunk.span.start < chunk.span.stop ∧
          chunk.span.stop ≤ words.length ∧
          chunk.leaves = chunk.span.slice words := by
  intro tree member
  have located := located_of_mem accepted parsed member
  have chunkLocated : ∀ label, ∀ chunk ∈ tree.minimalChunks label,
      chunk.Located words := fun label chunk isChunk =>
    located chunk (ParseTree.mem_minimalChunks_iff.mp isChunk).1
  refine ⟨rfl, fun label => ⟨?_, fun chunk isChunk => ?_⟩⟩
  · rw [List.pairwise_map]
    apply (ParseTree.pairwise_minimalChunks label located).imp_of_mem
    intro first second isChunk _ leftOf
    have proper := (chunkLocated label first isChunk).proper
    exact ⟨Nat.lt_of_lt_of_le proper leftOf, leftOf⟩
  · have chunkLocated := chunkLocated label chunk isChunk
    exact ⟨chunkLocated.proper, chunkLocated.within, chunkLocated.leaves_eq⟩

/-- The whole of three words and the last two of them are phrases too, but the
chunks are the single words. -/
theorem parse_minimalChunks_sequences :
    rightward.minimalChunks "S" = [single 0, single 1, single 2] ∧
      ([⟨0, 1⟩, ⟨1, 2⟩, ⟨2, 3⟩] : List Span).Pairwise (fun first second =>
        first.start < second.start ∧ first.LeftOf second) ∧
      (single 1).leaves = Span.slice ⟨1, 2⟩ ["x", "x", "x"] := by
  have chunks : rightward.minimalChunks "S" =
      [single 0, single 1, single 2] := by
    rw [ParseTree.minimalChunks_eq]
    decide +kernel
  obtain ⟨_, each⟩ := parse_minimalChunks ofProductions_sequences
    parse_sequences rightward (by simp)
  obtain ⟨ordered, read⟩ := each "S"
  rw [chunks] at ordered read
  exact ⟨chunks, ordered, (read (single 1) (by simp)).2.2⟩

end Grammar

end Constituency
