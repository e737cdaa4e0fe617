import Constituency.Proofs.Grammar.Source
import Constituency.Proofs.Rule.Text

/-!
# Grammars in several blocks

A grammar in several blocks of text, each of which is empty or ends in a line
feed, is the grammar of the whole text.  It has the same warnings and the same
defect, if it has one.  Only a line that is no rule is named by its number within
its block, which is what is left of its number in the whole text without the lines
of the blocks before.
-/

namespace Constituency

/-- The error of a text that so many lines come before. -/
def GrammarError.movedDown (offset : Nat) : GrammarError → GrammarError
  | .malformedRule line fault => .malformedRule (line + offset) fault
  | error => error

namespace Rule

def lineCount (text : String) : Nat :=
  (Text.lines text.toList).length

def lineCounts (texts : List String) : Nat :=
  (texts.map lineCount).sum

variable {first : String} {blocks : List String}
variable {productions : List Production} {number : Nat} {fault : RuleFault}

section Lines

theorem readLinesFrom_add (number offset : Nat) (lines : List (List Char)) :
    readLinesFrom (number + offset) lines =
      (readLinesFrom number lines).mapError (·.movedDown offset) := by
  induction lines generalizing number with
  | nil => rfl
  | cons line rest ih =>
      have following := ih (number + 1)
      rw [Nat.add_right_comm] at following
      simp only [readLinesFrom, following]
      split
      · rfl
      · cases read (dropComment line) with
        | error fault => rfl
        | ok rule => cases readLinesFrom (number + 1) rest <;> rfl

theorem readLinesFrom_append (number : Nat) (lines others : List (List Char)) :
    readLinesFrom number (lines ++ others) =
      (readLinesFrom number lines).bind fun productions =>
        (readLinesFrom (number + lines.length) others).map
          (productions ++ ·) := by
  induction lines generalizing number with
  | nil =>
      rw [List.nil_append, readLinesFrom]
      cases readLinesFrom number others <;> rfl
  | cons line rest ih =>
      have count : number + (line :: rest).length =
          number + 1 + rest.length := by
        rw [List.length_cons]
        omega
      simp only [List.cons_append, readLinesFrom, ih, count]
      split
      · rfl
      · cases read (dropComment line) with
        | error fault => rfl
        | ok rule =>
            cases readLinesFrom (number + 1) rest with
            | error error => rfl
            | ok productions =>
                cases readLinesFrom (number + 1 + rest.length) others with
                | error error => rfl
                | ok others => simp [Except.map, Except.bind]

end Lines

/-- The lines of a text after an ended one are read as they are by themselves,
further down. -/
theorem readText_append (ended : Text.Ended first.toList) (rest : String) :
    readText (first ++ rest) =
      (readText first).bind fun productions =>
        ((readText rest).mapError (·.movedDown (lineCount first))).map
          (productions ++ ·) := by
  rw [readText, String.toList_append, Text.lines_append_of_ended ended,
    readLinesFrom_append, readLinesFrom_add]
  rfl

theorem readText_within {text : String}
    (failed : readText text = .error (.malformedRule number fault)) :
    0 < number ∧ number ≤ lineCount text := by
  obtain ⟨_, _, same, before, line, after, split, placed, _⟩ :=
    firstMalformed_of_eq_error failed
  obtain ⟨rfl, rfl⟩ := GrammarError.malformedRule.inj same
  have counted := congrArg List.length split
  rw [List.length_map, List.length_append, List.length_cons] at counted
  rw [lineCount]
  omega

theorem readBlocks_of_readText_join
    (ended : ∀ block ∈ blocks, Text.Ended block.toList)
    (found : readText (String.join blocks) = .ok productions) :
    readBlocks blocks = .ok productions := by
  induction blocks generalizing productions with
  | nil => exact found
  | cons block rest ih =>
      obtain ⟨blockEnded, restEnded⟩ := List.forall_mem_cons.mp ended
      rw [String.join_cons, readText_append blockEnded] at found
      rw [readBlocks]
      cases own : readText block with
      | error error => simp [own, Except.bind] at found
      | ok productions =>
          rw [own] at found
          obtain ⟨others, othersFound, rfl⟩ := map_eq_ok_iff.mp found
          cases following : readText (String.join rest) with
          | error error => simp [following, Except.mapError] at othersFound
          | ok others' =>
              rw [following] at othersFound
              obtain rfl := Except.ok.inj othersFound
              simp only [ih restEnded following, Except.map]

/-- Where the whole text has its first line that is no rule, its block has it. -/
theorem exists_block_of_readText_join
    (ended : ∀ block ∈ blocks, Text.Ended block.toList)
    (failed : readText (String.join blocks) =
      .error (.malformedRule number fault)) :
    ∃ before block after, blocks = before ++ block :: after ∧
      lineCounts before < number ∧
      number ≤ lineCounts before + lineCount block ∧
      readBlocks blocks =
        .error (.malformedRule (number - lineCounts before) fault) := by
  induction blocks generalizing number with
  | nil => cases failed
  | cons block rest ih =>
      obtain ⟨blockEnded, restEnded⟩ := List.forall_mem_cons.mp ended
      rw [String.join_cons, readText_append blockEnded] at failed
      cases own : readText block with
      | error error =>
          obtain rfl : error = .malformedRule number fault := by
            simpa [own, Except.bind] using failed
          obtain ⟨positive, within⟩ := readText_within own
          refine ⟨[], block, rest, rfl, positive, ?_, ?_⟩
          · rw [lineCounts, List.map_nil, List.sum_nil, Nat.zero_add]
            exact within
          · rw [readBlocks, own]
            rfl
      | ok productions =>
          rw [own] at failed
          cases following : readText (String.join rest) with
          | ok others =>
              simp [following, Except.bind, Except.mapError, Except.map]
                at failed
          | error error =>
              -- The error is a line of the rest, further down by this block.
              obtain ⟨place, restFault, rfl, _⟩ :=
                firstMalformed_of_eq_error following
              obtain ⟨rfl, rfl⟩ : place + lineCount block = number ∧
                  restFault = fault := by
                simpa [following, Except.bind, Except.mapError, Except.map,
                  GrammarError.movedDown] using failed
              obtain ⟨before, faulty, after, rfl, above, within, read⟩ :=
                ih restEnded following
              have counts : lineCounts (block :: before) =
                  lineCount block + lineCounts before := by
                rw [lineCounts, List.map_cons, List.sum_cons, lineCounts]
              have sameLine : place + lineCount block -
                  lineCounts (block :: before) = place - lineCounts before := by
                omega
              refine ⟨block :: before, faulty, after, rfl, ?_, ?_, ?_⟩
              · omega
              · omega
              · rw [sameLine, readBlocks, own, read]
                rfl

theorem exists_first_block {production : Production}
    (found : readBlocks blocks = .ok (production :: productions)) :
    ∃ before block after rest, blocks = before ++ block :: after ∧
      (∀ earlier ∈ before, readText earlier = .ok []) ∧
      readText block = .ok (production :: rest) := by
  induction blocks with
  | nil => cases found
  | cons block rest ih =>
      rw [readBlocks] at found
      cases own : readText block with
      | error error => simp [own] at found
      | ok listed =>
          rw [own] at found
          obtain ⟨others, othersFound, split⟩ := map_eq_ok_iff.mp found
          cases listed with
          | cons head tail =>
              obtain ⟨rfl, _⟩ := List.cons.inj split
              exact ⟨[], block, rest, tail, rfl, by simp, own⟩
          | nil =>
              obtain rfl : others = production :: productions := split
              obtain ⟨before, first, after, tail, rfl, none, read⟩ :=
                ih othersFound
              exact ⟨block :: before, first, after, tail, rfl,
                List.forall_mem_cons.mpr ⟨own, none⟩, read⟩

end Rule

namespace Grammar

open Rule

variable {blocks : List String} {grammar : Grammar}
variable {number : Nat} {fault : RuleFault}

/-- Once productions are read, no line is to blame any more. -/
theorem buildFromFirst_ne_malformedRule (productions : List Production) :
    (buildFromFirst productions).result ≠
      .error (.malformedRule number fault) := by
  intro failed
  cases productions with
  | nil => cases failed
  | cons first rest =>
      cases verdict_of_eq failed with
      | illShaped first =>
          obtain ⟨_, _, _, _, _, shapeFault⟩ := first
          cases shapeFault

theorem exists_start_block (built : ofBlocks blocks = .ok grammar) :
    ∃ before block after first rest, blocks = before ++ block :: after ∧
      (∀ earlier ∈ before, readText earlier = .ok []) ∧
      readText block = .ok (first :: rest) ∧ grammar.start = first.lhs := by
  obtain ⟨first, others, read, accepted⟩ := ofBlocks_eq_ok_iff.mp built
  obtain ⟨before, block, after, rest, split, none, own⟩ :=
    exists_first_block read
  exact ⟨before, block, after, first, rest, split, none, own,
    (indexes_of_ofProductions accepted).start_eq⟩

/-- Merging blocks is reading their whole text, up to the number of the line that
is no rule, if there is one.  The first rule of the first block that has a rule
names the start symbol. -/
theorem buildFromBlocks_join (blocks : List String)
    (ended : ∀ block ∈ blocks, Text.Ended block.toList) :
    ((∀ number fault, (buildFromBlocks [String.join blocks]).result ≠
        .error (.malformedRule number fault)) →
      buildFromBlocks blocks = buildFromBlocks [String.join blocks]) ∧
    (∀ number fault, (buildFromBlocks [String.join blocks]).result =
        .error (.malformedRule number fault) →
      ∃ before block after, blocks = before ++ block :: after ∧
        lineCounts before < number ∧
        number ≤ lineCounts before + lineCount block ∧
        buildFromBlocks blocks =
          ⟨[], .error (.malformedRule (number - lineCounts before) fault)⟩) ∧
    ∀ grammar, (buildFromBlocks blocks).result = .ok grammar →
      ∃ before block after first rest, blocks = before ++ block :: after ∧
        (∀ earlier ∈ before, readText earlier = .ok []) ∧
        readText block = .ok (first :: rest) ∧ grammar.start = first.lhs := by
  have single : readBlocks [String.join blocks] =
      readText (String.join blocks) := by
    rw [readBlocks]
    cases readText (String.join blocks) with
    | error error => rfl
    | ok productions => simp [readBlocks, Except.map]
  refine ⟨?_, ?_, fun grammar => exists_start_block⟩
  · intro noFault
    cases read : readText (String.join blocks) with
    | ok productions =>
        rw [buildFromBlocks, buildFromBlocks, single, read,
          readBlocks_of_readText_join ended read]
    | error error =>
        obtain ⟨number, fault, rfl, _⟩ := firstMalformed_of_eq_error read
        refine absurd ?_ (noFault number fault)
        rw [buildFromBlocks, single, read]
  · intro number fault failed
    rw [buildFromBlocks, single] at failed
    cases read : readText (String.join blocks) with
    | ok productions =>
        rw [read] at failed
        exact absurd failed (buildFromFirst_ne_malformedRule productions)
    | error error =>
        rw [read] at failed
        obtain rfl := Except.error.inj failed
        obtain ⟨before, block, after, split, above, within, parts⟩ :=
          exists_block_of_readText_join ended read
        refine ⟨before, block, after, split, above, within, ?_⟩
        rw [buildFromBlocks, parts]

/-- The third block begins with a blank line, and its second line has no
arrow. -/
def faultyBlocks : List String :=
  ["// phrases\nS -> S S | N\n", "", "\nN \"x\"\n"]

/-- The first rule stands in the third block. -/
def spreadBlocks : List String :=
  ["// phrases\n", "", "S -> S S | N\n", "N -> \"x\"\n"]

/-- The second line of the third block is the fourth of the whole text.  The rules
that are spread over blocks give the grammar of the whole text, and its start
symbol stands in the first block that has a rule. -/
theorem buildFromBlocks_join_faultyBlocks :
    (∀ block ∈ faultyBlocks, Text.Ended block.toList) ∧
      (buildFromBlocks [String.join faultyBlocks]).result =
        .error (.malformedRule 4 (.missingArrow "\"x\"")) ∧
      (buildFromBlocks faultyBlocks).result =
        .error (.malformedRule 2 (.missingArrow "\"x\"")) ∧
      (∀ block ∈ spreadBlocks, Text.Ended block.toList) ∧
      buildFromBlocks spreadBlocks =
        buildFromBlocks [String.join spreadBlocks] ∧
      ∃ grammar, (buildFromBlocks spreadBlocks).result = .ok grammar ∧
        grammar.productions =
          #[⟨"S", [.nonterminal "S", .nonterminal "S"]⟩,
            ⟨"S", [.nonterminal "N"]⟩, ⟨"N", [.terminal "x"]⟩] ∧
        grammar.start = "S" ∧
        ∃ before block after first rest,
          spreadBlocks = before ++ block :: after ∧
          (∀ earlier ∈ before, readText earlier = .ok []) ∧
          readText block = .ok (first :: rest) ∧ first.lhs = "S" := by
  have ended : ∀ block ∈ faultyBlocks, Text.Ended block.toList := by
    decide +kernel
  have whole : (buildFromBlocks [String.join faultyBlocks]).result =
      .error (.malformedRule 4 (.missingArrow "\"x\"")) := by
    decide +kernel
  obtain ⟨before, block, after, split, above, within, parts⟩ :=
    (buildFromBlocks_join faultyBlocks ended).2.1 _ _ whole
  have counted : lineCounts before = 2 := by
    have counts : faultyBlocks.map lineCount = [2, 0, 2] := by decide +kernel
    rw [split, List.map_append, List.map_cons] at counts
    rw [lineCounts] at above within ⊢
    generalize before.map lineCount = earlier at counts above within ⊢
    rcases earlier with _ | ⟨first, _ | ⟨second, _ | ⟨third, rest⟩⟩⟩ <;>
      simp at counts above within ⊢ <;> omega
  have spreadEnded : ∀ block ∈ spreadBlocks, Text.Ended block.toList := by
    decide +kernel
  have built : (buildFromBlocks [String.join spreadBlocks]).result.map
      (fun grammar => (grammar.start, grammar.productions)) =
      .ok ("S", #[⟨"S", [.nonterminal "S", .nonterminal "S"]⟩,
        ⟨"S", [.nonterminal "N"]⟩, ⟨"N", [.terminal "x"]⟩]) := by
    decide +kernel
  obtain ⟨grammar, accepted, parts'⟩ := map_eq_ok_iff.mp built
  obtain ⟨startEq, productionsEq⟩ := Prod.mk.inj parts'
  obtain ⟨merges, _, starts⟩ := buildFromBlocks_join spreadBlocks spreadEnded
  have merged := merges fun number fault failed => by
    rw [accepted] at failed
    cases failed
  rw [← merged] at accepted
  obtain ⟨before', block', after', first, rest, split', silent, read, lhsEq⟩ :=
    starts grammar accepted
  refine ⟨ended, whole, ?_, spreadEnded, merged, grammar, accepted,
    productionsEq, startEq, before', block', after', first, rest, split', silent,
    read, lhsEq.symm.trans startEq⟩
  rw [parts, counted]

end Grammar

end Constituency
