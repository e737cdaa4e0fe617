import Constituency.Grammar.Source
import Constituency.Proofs.Grammar.Verdict
import Constituency.Proofs.Parse.Chart
import Constituency.Proofs.Rule.Reader

/-!
# Writing a grammar and reading it again

Productions are read again from their written forms, one on a line, just if all of
them can be expressed.  A grammar is read again from its written form just if its
productions can be expressed and the first of them is for the start symbol, as
the line that names the start symbol is a comment.  Grammars that were read from
text are of this kind.
-/

namespace Constituency

namespace Rule

variable {productions : List Production}

theorem expressible_of_readLinesFrom {lines : List (List Char)} {number : Nat}
    (noFeed : ∀ line ∈ lines, '\n' ∉ line)
    (found : readLinesFrom number lines = .ok productions) :
    ∀ production ∈ productions, production.Expressible := by
  induction lines generalizing number productions with
  | nil =>
      obtain rfl := Except.ok.inj found
      simp
  | cons line rest ih =>
      obtain ⟨lineNoFeed, restNoFeed⟩ := List.forall_mem_cons.mp noFeed
      rw [readLinesFrom] at found
      split at found
      · exact ih restNoFeed found
      · split at found
        · cases found
        · rename_i rule ruleFound
          obtain ⟨others, othersFound, rfl⟩ := map_eq_ok_iff.mp found
          exact List.forall_mem_append.mpr
            ⟨expressible_of_read (clean_dropComment lineNoFeed) ruleFound,
              ih restNoFeed othersFound⟩

theorem expressible_of_readText {text : String}
    (found : readText text = .ok productions) :
    ∀ production ∈ productions, production.Expressible :=
  expressible_of_readLinesFrom Text.no_lineFeed_of_mem_lines found

theorem expressible_of_readBlocks {blocks : List String}
    (found : readBlocks blocks = .ok productions) :
    ∀ production ∈ productions, production.Expressible := by
  induction blocks generalizing productions with
  | nil =>
      obtain rfl := Except.ok.inj found
      simp
  | cons block rest ih =>
      rw [readBlocks] at found
      split at found
      · cases found
      · rename_i first firstFound
        obtain ⟨others, othersFound, rfl⟩ := map_eq_ok_iff.mp found
        exact List.forall_mem_append.mpr
          ⟨expressible_of_readText firstFound, ih othersFound⟩

theorem readLinesFrom_written
    (expressible : ∀ production ∈ productions, production.Expressible)
    (number : Nat) :
    readLinesFrom number (productions.map Production.written) =
      .ok productions := by
  induction productions generalizing number with
  | nil => rfl
  | cons production rest ih =>
      obtain ⟨first, restExpressible⟩ := List.forall_mem_cons.mp expressible
      -- The arrow is not blank.
      have notBlank : ¬ production.written.all Text.isBlank = true := by
        intro blank
        have arrow : '>' ∈ production.written := by simp [Production.written]
        exact absurd (List.all_eq_true.mp blank '>' arrow) (by decide)
      rw [List.map_cons, readLinesFrom, dropComment_written first,
        if_neg notBlank, read_written first, ih restExpressible]
      rfl

/-- Productions are read again from their written forms just if all of them can
be expressed. -/
theorem readText_written_iff :
    readText ("\n".intercalate (productions.map toString)) = .ok productions ↔
      ∀ production ∈ productions, production.Expressible := by
  constructor
  · exact expressible_of_readText
  · intro expressible
    have letters : ("\n".intercalate (productions.map toString)).toList =
        ['\n'].intercalate (productions.map Production.written) := by
      rw [String.toList_intercalate, List.map_map]
      congr 1
      apply List.map_congr_left
      intro production _
      exact String.toList_ofList
    have lines : Text.lines (['\n'].intercalate
        (productions.map Production.written)) =
        productions.map Production.written := by
      apply Text.lines_intercalate
      · exact List.forall_mem_map.mpr fun production member =>
          plain_written (expressible production member)
      · exact List.forall_mem_map.mpr fun production _ => by
          simp [Production.written]
    rw [readText, letters, lines]
    exact readLinesFrom_written expressible 1

end Rule

namespace Grammar

variable {start : String} {productions : List Production} {grammar : Grammar}
variable {blocks : List String}

/-- A grammar that can be read from text. -/
structure Expressible (grammar : Grammar) : Prop where
  productions : ∀ production ∈ grammar.productions, production.Expressible
  start : ∃ first, grammar.productions[0]? = some first ∧
    first.lhs = grammar.start

theorem ofBlocks_eq_ok_iff :
    ofBlocks blocks = .ok grammar ↔
      ∃ first rest, Rule.readBlocks blocks = .ok (first :: rest) ∧
        ofProductions first.lhs (first :: rest) = .ok grammar := by
  rw [ofBlocks, buildFromBlocks]
  cases read : Rule.readBlocks blocks with
  | error error => simp
  | ok productions =>
      cases productions with
      | nil => simp [buildFromFirst]
      | cons first rest => simp [buildFromFirst, ofProductions]

/-- What is built from text can be read from text. -/
theorem expressible_of_ofBlocks (built : ofBlocks blocks = .ok grammar) :
    grammar.Expressible := by
  obtain ⟨first, rest, read, accepted⟩ := ofBlocks_eq_ok_iff.mp built
  have indexes := indexes_of_ofProductions accepted
  have readable := Rule.expressible_of_readBlocks read
  constructor
  · intro production member
    rw [← Array.mem_toList_iff, indexes.productions_eq, List.mem_eraseDups]
      at member
    exact readable production member
  · refine ⟨first, ?_, indexes.start_eq.symm⟩
    rw [← Array.getElem?_toList, indexes.productions_eq, List.eraseDups_cons]
    rfl

def header (grammar : Grammar) : List Char :=
  "// start: ".toList ++ grammar.start.toList

theorem header_eq (grammar : Grammar) :
    grammar.header = "// start: ".toList ++ grammar.start.toList :=
  rfl

theorem dropComment_header (grammar : Grammar) :
    Rule.dropComment grammar.header = [] :=
  rfl

theorem written_eq (grammar : Grammar) :
    grammar.written = grammar.header ++ '\n' ::
      (grammar.productions.toList.map Production.written).flatMap
        fun line => line ++ ['\n'] := by
  rw [List.flatMap_map]
  rfl

theorem plain_header (isName : Rule.IsName grammar.start) :
    Text.Plain grammar.header := by
  have noFeed : '\n' ∉ grammar.header := by
    rw [header_eq, List.mem_append]
    rintro (inComment | inStart)
    · simp at inComment
    · exact isName.not_mem (by decide) inStart
  have noReturn : grammar.header.getLast? ≠ some '\r' := by
    rw [header_eq, List.getLast?_append_of_ne_nil _ isName.nonempty]
    exact fun last => isName.not_mem (by decide) (List.mem_of_getLast? last)
  exact ⟨noFeed, noReturn⟩

theorem lines_toString (isName : Rule.IsName grammar.start)
    (readable : ∀ production ∈ grammar.productions.toList,
      production.Expressible) :
    Text.lines (toString grammar).toList =
      grammar.header :: grammar.productions.toList.map Production.written := by
  have letters : (toString grammar).toList = grammar.written :=
    String.toList_ofList
  rw [letters, written_eq, Text.lines_append (plain_header isName),
    Text.lines_flatMap]
  exact List.forall_mem_map.mpr fun production member =>
    Rule.plain_written (readable production member)

theorem readText_toString (expressible : grammar.Expressible) :
    Rule.readText (toString grammar) = .ok grammar.productions.toList := by
  obtain ⟨readable, first, atFirst, startEq⟩ := expressible
  have isName : Rule.IsName grammar.start :=
    startEq ▸ (readable first (Array.mem_of_getElem? atFirst)).lhs
  have listed : ∀ production ∈ grammar.productions.toList,
      production.Expressible := fun production member =>
    readable production (Array.mem_toList_iff.mp member)
  rw [Rule.readText, lines_toString isName listed, Rule.readLinesFrom,
    dropComment_header]
  exact Rule.readLinesFrom_written listed 2

theorem ofText_toString
    (accepted : ofProductions start productions = .ok grammar)
    (expressible : grammar.Expressible) :
    ofText (toString grammar) = .ok grammar := by
  have read := readText_toString expressible
  obtain ⟨first, atFirst, startEq⟩ := expressible.start
  obtain ⟨rest, listed⟩ : ∃ rest, grammar.productions.toList = first :: rest := by
    rw [← Array.getElem?_toList] at atFirst
    cases listed : grammar.productions.toList with
    | nil => simp [listed] at atFirst
    | cons head rest =>
        obtain rfl : head = first := by simpa [listed] using atFirst
        exact ⟨rest, rfl⟩
  rw [ofText, ofBlocks_eq_ok_iff]
  refine ⟨first, rest, ?_, ?_⟩
  · rw [Rule.readBlocks, read, listed]
    simp [Rule.readBlocks, Except.map]
  · rw [startEq, ← listed]
    exact ofProductions_again accepted

/-- What is read again from the written form is what was written just if it can be
expressed. -/
theorem toString_roundtrip :
    (∀ productions : List Production,
      Rule.readText ("\n".intercalate (productions.map toString)) =
          .ok productions ↔
        ∀ production ∈ productions, production.Expressible) ∧
    (∀ (start : String) (productions : List Production) (grammar : Grammar),
      ofProductions start productions = .ok grammar →
      ((∃ again, ofText (toString grammar) = .ok again ∧
          again.start = grammar.start ∧
          again.productions = grammar.productions ∧
          again.nonterminals = grammar.nonterminals) ↔
        grammar.Expressible)) ∧
    ∀ (blocks : List String) (grammar : Grammar),
      ofBlocks blocks = .ok grammar →
      ofText (toString grammar) = .ok grammar := by
  refine ⟨fun _ => Rule.readText_written_iff, ?_, ?_⟩
  · intro start productions grammar accepted
    constructor
    · rintro ⟨again, built, startEq, productionsEq, _⟩
      obtain ⟨readable, first⟩ := expressible_of_ofBlocks built
      rw [startEq, productionsEq] at first
      rw [productionsEq] at readable
      exact ⟨readable, first⟩
    · intro expressible
      exact ⟨grammar, ofText_toString accepted expressible, rfl, rfl, rfl⟩
  · intro blocks grammar built
    obtain ⟨first, rest, _, accepted⟩ := ofBlocks_eq_ok_iff.mp built
    exact ofText_toString accepted (expressible_of_ofBlocks built)

theorem toString_roundtrip_sequences :
    (∀ production ∈ sequences.productions.toList, production.Expressible) ∧
      Rule.readText ("\n".intercalate
        (sequences.productions.toList.map toString)) =
          .ok sequences.productions.toList ∧
      ∃ again, ofText (toString sequences) = .ok again ∧
        again.productions = sequences.productions := by
  have readable : ∀ production ∈ sequences.productions.toList,
      production.Expressible := by
    decide +kernel
  have expressible : sequences.Expressible :=
    ⟨fun production member => readable production (Array.mem_toList_iff.mpr member),
      _, rfl, rfl⟩
  obtain ⟨productions_iff, grammar_iff, _⟩ := toString_roundtrip
  obtain ⟨again, built, _, sameProductions, _⟩ :=
    (grammar_iff _ _ _ ofProductions_sequences).mpr expressible
  exact ⟨readable, (productions_iff _).mpr readable, again, built,
    sameProductions⟩

end Grammar

end Constituency
