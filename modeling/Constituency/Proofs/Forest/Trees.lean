import Constituency.Proofs.Derivation.Order
import Constituency.Proofs.Forest.Graded
import Constituency.Proofs.Selection

/-!
# The trees of a filled chart

The trees of a cell, without their spans, are just the trees that derive the
words of its span from its nonterminal.  No tree is listed twice: the trees of a
cell are in the order of derivations.
-/

namespace Constituency

/-- A conforming tree has words, as no production has an empty right-hand
side. -/
theorem BareTree.Conforms.words_ne_nil {grammar : Grammar} {tree : BareTree}
    (conforms : tree.Conforms grammar) (wellFormed : grammar.WellFormed) : tree.words ≠ [] := by
  induction conforms with
  | leaf => simp
  | @branch label children listed below ih =>
      have nonempty := wellFormed.rhs_ne_nil listed
      rcases children with _ | ⟨child, rest⟩
      · simp at nonempty
      · simp [ih child (by simp)]

namespace Chart

variable {chart : Chart} {number : Nat} {cell : Cell} {span : Span}
variable {symbol : Nat} {derivation : Derivation}

/-- The trees of a cell, without their spans. -/
def bareTrees (chart : Chart) (number : Nat) : List BareTree :=
  (chart.evaluate (Forest.treesOfParts chart.grammar) number).map
    ParseTree.bare

def bareTreesOf (chart : Chart) (label : String) (derivation : Derivation) :
    List BareTree :=
  if derivation.children.isEmpty then
    let word :=
      chart.grammar.productions[derivation.production]?.bind (·.word?)
    [.branch label [.leaf (word.getD "")]]
  else
    (tuples (derivation.children.map chart.bareTrees)).map (.branch label)

theorem Filled.bareTrees_eq (filled : chart.Filled)
    (opened : chart.cells[number]? = some cell) :
    chart.bareTrees number = cell.derivations.toList.flatMap
      (chart.bareTreesOf (chart.grammar.symbolName cell.symbol)) := by
  obtain ⟨level, graded⟩ := filled.exists_graded
  rw [bareTrees, evaluate_eq graded opened, Forest.treesOfParts,
    List.flatMap_map, List.map_flatMap]
  apply List.flatMap_congr
  rintro ⟨production, children⟩ _
  rw [bareTreesOf]
  by_cases lexical : children = []
  · simp [lexical]
  · have choices : children.map chart.bareTrees =
        (children.map (chart.evaluate
          (Forest.treesOfParts chart.grammar))).map (List.map ParseTree.bare) := by
      rw [List.map_map]
      rfl
    simp only [List.isEmpty_iff, lexical, if_false]
    rw [selections_eq_tuples (by simpa using lexical), choices, ← map_tuples,
      List.map_map, List.map_map]
    apply List.map_congr_left
    intro trees _
    simp

/-- Trees that can stand below a tree of the derivation of a nonterminal on a
span. -/
inductive Grows (chart : Chart) (span : Span) (symbol : Nat) :
    Derivation → List BareTree → Prop
  | lexical {production : Nat} {word : String}
      (numbered : chart.grammar.numbered[production]? = some ⟨symbol, []⟩)
      (listed : production ∈ chart.grammar.lexicalFor word)
      (placed : chart.words[span.start]? = some word)
      (single : span.stop = span.start + 1) :
      Grows chart span symbol ⟨production, []⟩ [.leaf word]
  | syntactic {production : Nat} {rhs children : List Nat}
      {trees : List BareTree}
      (numbered : chart.grammar.numbered[production]? = some ⟨symbol, rhs⟩)
      (nonempty : rhs ≠ [])
      (tiled : Tiled chart.cellAt? rhs span children)
      (grown : List.Forall₂ (fun tree child => tree ∈ chart.bareTrees child)
        trees children) :
      Grows chart span symbol ⟨production, children⟩ trees

theorem mem_bareTreesOf (wellFormed : chart.grammar.WellFormed)
    (builds : chart.Builds span symbol derivation) {label : String}
    {tree : BareTree} :
    tree ∈ chart.bareTreesOf label derivation ↔
      ∃ trees, tree = .branch label trees ∧
        chart.Grows span symbol derivation trees := by
  cases builds with
  | @lexical production word numbered listed placed single =>
      obtain ⟨lhs, _, _, found⟩ := wellFormed.mem_lexicalFor_iff.mp listed
      have word_eq : chart.grammar.productions[production]?.bind
          (·.word?) = some word := by
        rw [found]
        rfl
      simp only [bareTreesOf, List.isEmpty_nil, if_true, word_eq,
        Option.getD_some, List.mem_singleton]
      constructor
      · rintro rfl
        exact ⟨_, rfl, .lexical numbered listed placed single⟩
      · rintro ⟨trees, rfl, grows⟩
        generalize same : (⟨production, []⟩ : Derivation) = derivation at grows
        cases grows with
        | lexical _ _ placed' _ =>
            rw [Option.some.inj (placed.symm.trans placed')]
        | syntactic numbered' nonempty' =>
            injection same with productionEq _
            subst productionEq
            exact absurd (Grammar.numbered_inj numbered numbered').2.symm
              nonempty'
  | @syntactic production rhs children numbered nonempty tiled =>
      have filled : children ≠ [] := by
        rintro rfl
        exact nonempty (List.length_eq_zero_iff.mp tiled.length_eq.symm)
      simp only [bareTreesOf, List.isEmpty_iff, filled, if_false, List.mem_map,
        mem_tuples, List.forall₂_map_right_iff]
      constructor
      · rintro ⟨trees, grown, rfl⟩
        exact ⟨trees, rfl, .syntactic numbered nonempty tiled grown⟩
      · rintro ⟨trees, rfl, grows⟩
        cases grows with
        | lexical => exact absurd rfl filled
        | syntactic _ _ _ grown => exact ⟨trees, grown, rfl⟩

theorem Grows.builds {trees : List BareTree}
    (grows : chart.Grows span symbol derivation trees) :
    chart.Builds span symbol derivation := by
  cases grows with
  | lexical numbered listed placed single =>
      exact .lexical numbered listed placed single
  | syntactic numbered nonempty tiled => exact .syntactic numbered nonempty tiled

/-- The trees of a cell are those that its nonterminal grows on its span. -/
theorem Filled.mem_bareTrees_iff (filled : chart.Filled)
    (opened : chart.cells[number]? = some cell) {tree : BareTree} :
    tree ∈ chart.bareTrees number ↔ ∃ derivation trees,
      tree = .branch (chart.grammar.symbolName cell.symbol) trees ∧
      chart.Grows cell.span cell.symbol derivation trees := by
  rw [filled.bareTrees_eq opened, List.mem_flatMap]
  constructor
  · rintro ⟨derivation, listed, member⟩
    have builds := (filled.mem_iff opened).mp listed
    exact ⟨derivation, (mem_bareTreesOf filled.wellFormed builds).mp member⟩
  · rintro ⟨derivation, trees, treeEq, grows⟩
    exact ⟨derivation, (filled.mem_iff opened).mpr grows.builds,
      (mem_bareTreesOf filled.wellFormed grows.builds).mpr
        ⟨trees, treeEq, grows⟩⟩

/-- All trees of a cell derive the words of its span from its nonterminal. -/
def Sound (chart : Chart) (number : Nat) : Prop :=
  ∀ {cell : Cell}, chart.cells[number]? = some cell →
    ∀ tree ∈ chart.bareTrees number, tree.Derives chart.grammar
      (chart.grammar.symbolName cell.symbol)
      (cell.span.slice chart.words.toList)

/-- Trees of cells side by side together derive the words of the tiled span. -/
theorem Tiled.sound {rhs children : List Nat} {trees : List BareTree}
    (tiled : Tiled chart.cellAt? rhs span children) (indexed : chart.Indexed)
    (within : span.stop ≤ chart.words.size)
    (known : ∀ symbol ∈ rhs, symbol < chart.grammar.symbolCount)
    (sound : ∀ child ∈ children, chart.Sound child)
    (grown : List.Forall₂ (fun tree child => tree ∈ chart.bareTrees child)
      trees children) :
    (trees.map BareTree.symbol = rhs.map fun symbol =>
        .nonterminal (chart.grammar.symbolName symbol)) ∧
      (∀ tree ∈ trees, tree.Conforms chart.grammar) ∧
      trees.flatMap BareTree.words = span.slice chart.words.toList ∧
      BareTree.splitPoints span.start trees = chart.splitPoints children := by
  induction tiled generalizing trees with
  | nil =>
      cases grown
      simp [BareTree.splitPoints, splitPoints]
  | @cons start middle stop child symbol rest children proper found below ih =>
      rcases grown with _ | ⟨member, grown⟩
      rename_i tree trees
      have room := below.length_le
      dsimp only at within room
      have admitted : chart.Admits ⟨start, middle⟩ symbol :=
        admits_of_within (Nat.le_of_lt proper) (by dsimp only; omega)
          (known symbol (by simp))
      obtain ⟨contents, opened, spanEq, symbolEq⟩ :=
        indexed.exists_cell admitted found
      have derives := sound child (by simp) opened tree member
      rw [spanEq, symbolEq] at derives
      obtain ⟨symbols, conform, sentence, splits⟩ := ih within
        (fun symbol member => known symbol (by simp [member]))
        (fun child member => sound child (by simp [member])) grown
      have length : start + tree.words.length = middle := by
        rw [derives.words_eq, Span.length_slice (by simpa using admitted.stop_le)]
        simp only [Span.length]
        omega
      refine ⟨?_, ?_, ?_, ?_⟩
      · rw [List.map_cons, List.map_cons, derives.symbol_eq, symbols]
      · intro other member
        rcases List.mem_cons.mp member with rfl | member
        · exact derives.conforms
        · exact conform other member
      · rw [List.flatMap_cons, derives.words_eq, sentence, Span.slice_append _
          (Nat.le_of_lt proper) (by omega)]
      · rw [BareTree.splitPoints, splitPoints, List.map_cons,
          indexed.cellStop_eq admitted found, length]
        exact congrArg (List.cons middle) splits

/-- The trees that stand below a tree of a cell fit its production, derive the
words of its span, and divide it as the derivation does. -/
theorem Grows.sound {trees : List BareTree}
    (grows : chart.Grows span symbol derivation trees) (filled : chart.Filled)
    (within : span.stop ≤ chart.words.size)
    (sound : ∀ child ∈ derivation.children, chart.Sound child) :
    chart.grammar.productions[derivation.production]? =
        some ⟨chart.grammar.symbolName symbol, trees.map BareTree.symbol⟩ ∧
      (∀ tree ∈ trees, tree.Conforms chart.grammar) ∧
      trees.flatMap BareTree.words = span.slice chart.words.toList ∧
      (derivation.children ≠ [] →
        BareTree.splitPoints span.start trees =
          chart.splitPoints derivation.children) := by
  cases grows with
  | @lexical production word numbered listed placed single =>
      obtain ⟨start, stop⟩ := span
      dsimp only at placed single
      subst stop
      refine ⟨filled.wellFormed.production_of_lexical numbered listed, ?_, ?_, ?_⟩
      · simpa using .leaf word
      · rw [Span.slice_of_getElem? (by simpa using placed)]
        simp
      · simp
  | syntactic numbered nonempty tiled grown =>
      obtain ⟨symbols, conform, sentence, splits⟩ := tiled.sound filled.indexed
        within (filled.wellFormed.known numbered).2 sound grown
      refine ⟨?_, conform, sentence, fun _ => splits⟩
      rw [symbols, filled.wellFormed.production_of_syntactic nonempty numbered]

theorem Filled.sound (filled : chart.Filled) :
    ∀ number < chart.size, chart.Sound number := by
  obtain ⟨level, graded⟩ := filled.exists_graded
  refine graded.induction fun number cell opened below => ?_
  intro cell' opened' tree member
  obtain rfl : cell = cell' := Option.some.inj (opened.symm.trans opened')
  obtain ⟨derivation, trees, rfl, grows⟩ :=
    (filled.mem_bareTrees_iff opened).mp member
  have listed := (filled.mem_iff opened).mpr grows.builds
  obtain ⟨found, conform, sentence, _⟩ := grows.sound filled
    (filled.indexed.admits opened).stop_le
    fun child member => below child ⟨cell, opened, derivation, listed, member⟩
  exact ⟨.branch (Array.mem_of_getElem? found) conform, rfl, by simpa using sentence⟩

/-- The tree is listed for each nonterminal and span for which it can be. -/
def Complete (chart : Chart) (tree : BareTree) : Prop :=
  ∀ {span : Span} {symbol : Nat}, symbol < chart.grammar.symbolCount →
    span.start ≤ span.stop → span.stop ≤ chart.words.size →
    tree.symbol = .nonterminal (chart.grammar.symbolName symbol) →
    tree.words = span.slice chart.words.toList →
    ∃ number, chart.cellAt? span symbol = some number ∧
      tree ∈ chart.bareTrees number

theorem exists_tiled {trees : List BareTree} {rhs : List Nat}
    (ordered : span.start ≤ span.stop) (within : span.stop ≤ chart.words.size)
    (known : ∀ symbol ∈ rhs, symbol < chart.grammar.symbolCount)
    (inhabited : ∀ tree ∈ trees, tree.words ≠ [])
    (complete : ∀ tree ∈ trees, chart.Complete tree)
    (symbols : trees.map BareTree.symbol = rhs.map fun symbol =>
      .nonterminal (chart.grammar.symbolName symbol))
    (sentence : trees.flatMap BareTree.words =
      span.slice chart.words.toList) :
    ∃ children, Tiled chart.cellAt? rhs span children ∧
      List.Forall₂ (fun tree child => tree ∈ chart.bareTrees child)
        trees children := by
  induction trees generalizing span rhs with
  | nil =>
      obtain rfl : rhs = [] := by simpa using symbols.symm
      have length : (span.slice chart.words.toList).length = span.length :=
        Span.length_slice (by simpa using within)
      rw [← sentence] at length
      obtain ⟨start, stop⟩ := span
      simp only [List.flatMap_nil, List.length_nil, Span.length] at length ordered
      obtain rfl : stop = start := by omega
      exact ⟨[], .nil stop, .nil⟩
  | cons tree trees ih =>
      rcases rhs with _ | ⟨symbol, rest⟩
      · simp at symbols
      · obtain ⟨start, stop⟩ := span
        simp only [List.map_cons, List.cons.injEq] at symbols
        obtain ⟨nonempty, restInhabited⟩ := List.forall_mem_cons.mp inhabited
        obtain ⟨treeComplete, restComplete⟩ := List.forall_mem_cons.mp complete
        obtain ⟨middleLe, treeWords, restWords⟩ :=
          (Span.slice_eq_append_iff ordered (by simpa using within)).mp
            sentence.symm
        have proper : start < start + tree.words.length :=
          Nat.lt_add_of_pos_right (List.length_pos_iff.mpr nonempty)
        obtain ⟨child, found, member⟩ := treeComplete
          (known symbol (by simp)) (Nat.le_of_lt proper)
          (Nat.le_trans middleLe within) symbols.1 treeWords.symm
        obtain ⟨children, tiled, grown⟩ := @ih
          ⟨start + tree.words.length, stop⟩ rest middleLe within
          (fun symbol member => known symbol (by simp [member]))
          restInhabited restComplete symbols.2 restWords.symm
        exact ⟨child :: children, .cons proper found tiled,
          .cons member grown⟩

/-- What a nonterminal grows on a span is listed in its cell there. -/
theorem Grows.exists_number {trees : List BareTree}
    (grows : chart.Grows span symbol derivation trees) (filled : chart.Filled)
    (proper : span.start < span.stop) (within : span.stop ≤ chart.words.size) :
    ∃ number, chart.cellAt? span symbol = some number ∧
      .branch (chart.grammar.symbolName symbol) trees ∈
        chart.bareTrees number := by
  have admitted : chart.Admits span symbol :=
    admits_of_within (Nat.le_of_lt proper) within
      (grows.builds.known filled.wellFormed)
  have listed := ((filled.exact span proper within).mem_iff symbol derivation
    admitted).mpr grows.builds
  obtain ⟨number, found⟩ := Option.isSome_iff_exists.mp
    ((filled.indexed.cellAt?_isSome_iff admitted).mpr (List.ne_nil_of_mem listed))
  obtain ⟨cell, opened, rfl, rfl⟩ := filled.indexed.exists_cell admitted found
  exact ⟨number, found, (filled.mem_bareTrees_iff opened).mpr
    ⟨derivation, trees, rfl, grows⟩⟩

/-- A filled chart lists all trees of its grammar. -/
theorem Filled.complete (filled : chart.Filled) {tree : BareTree}
    (conforms : tree.Conforms chart.grammar) :
    chart.Complete tree := by
  induction conforms with
  | leaf word =>
      intro _ _ _ _ _ symbols
      simp [BareTree.symbol] at symbols
  | @branch label children listed below ih =>
      intro span symbol known ordered within symbols sentence
      have inhabited :=
        (BareTree.Conforms.branch listed below).words_ne_nil filled.wellFormed
      simp only [BareTree.symbol, Symbol.nonterminal.injEq] at symbols
      simp only [BareTree.words_branch] at sentence inhabited
      have length : (span.slice chart.words.toList).length = span.length :=
        Span.length_slice (by simpa using within)
      have proper : span.start < span.stop := by
        rw [← sentence] at length
        have := List.length_pos_iff.mpr inhabited
        simp only [Span.length] at length
        omega
      -- It is enough to find a derivation: its cell is there, since the span
      -- is exact.
      suffices grows : ∃ derivation,
          chart.Grows span symbol derivation children by
        obtain ⟨derivation, grows⟩ := grows
        exact symbols ▸ grows.exists_number filled proper within
      obtain ⟨production, found⟩ := Array.mem_iff_getElem?.mp listed
      obtain ⟨lhs, lhsKnown, ⟨word, numbered, indexed, shape⟩ |
        ⟨rhs, numbered, nonempty, shape⟩⟩ :=
        filled.wellFormed.production_cases found
      · simp only [Production.mk.injEq] at shape
        obtain rfl : lhs = symbol := Grammar.symbolName_injective
          filled.wellFormed.inverts lhsKnown known
          (shape.1.symm.trans symbols)
        obtain ⟨child, rfl, terminal⟩ := List.map_eq_singleton_iff.mp shape.2
        obtain rfl := BareTree.eq_leaf_of_symbol_eq terminal
        obtain ⟨single, placed⟩ := Span.of_slice_eq_singleton
          (by simpa using within) sentence.symm
        rw [Array.getElem?_toList] at placed
        exact ⟨_, .lexical numbered indexed placed single⟩
      · simp only [Production.mk.injEq] at shape
        obtain rfl : lhs = symbol := Grammar.symbolName_injective
          filled.wellFormed.inverts lhsKnown known
          (shape.1.symm.trans symbols)
        obtain ⟨cells, tiled, grown⟩ := exists_tiled ordered within
          (filled.wellFormed.known numbered).2
          (fun child member => (below child member).words_ne_nil
            filled.wellFormed)
          ih shape.2 sentence
        exact ⟨_, .syntactic numbered nonempty tiled grown⟩

namespace Filled

variable (filled : chart.Filled)

include filled

/-- The trees of a cell are just those that derive the words of its span from its
nonterminal. -/
theorem mem_bareTrees_iff_derives (opened : chart.cells[number]? = some cell)
    {tree : BareTree} :
    tree ∈ chart.bareTrees number ↔
      tree.Derives chart.grammar (chart.grammar.symbolName cell.symbol)
        (cell.span.slice chart.words.toList) := by
  constructor
  · exact filled.sound number (lt_size_of_getElem? opened) opened tree
  · rintro ⟨conforms, symbols, sentence⟩
    have admitted := filled.indexed.admits opened
    obtain ⟨number', found, member⟩ := filled.complete conforms
      admitted.symbol_lt (Nat.le_of_lt (filled.proper opened)) admitted.stop_le
      symbols sentence
    rw [filled.indexed.cellAt?_eq opened] at found
    exact Option.some.inj found ▸ member

theorem bareTrees_ne_nil : ∀ number < chart.size,
    chart.bareTrees number ≠ [] := by
  obtain ⟨level, graded⟩ := filled.exists_graded
  refine graded.induction fun number cell opened below => ?_
  obtain ⟨derivation, listed⟩ :=
    List.exists_mem_of_ne_nil _ (filled.indexed.inhabited opened)
  have inhabited : chart.bareTreesOf
      (chart.grammar.symbolName cell.symbol) derivation ≠ [] := by
    rw [bareTreesOf]
    split
    · simp
    · rw [ne_eq, List.map_eq_nil_iff]
      apply tuples_ne_nil
      intro choice member
      obtain ⟨child, isChild, rfl⟩ := List.mem_map.mp member
      exact below child ⟨cell, opened, derivation, listed, isChild⟩
  obtain ⟨tree, member⟩ := List.exists_mem_of_ne_nil _ inhabited
  rw [filled.bareTrees_eq opened]
  exact List.ne_nil_of_mem (List.mem_flatMap.mpr ⟨derivation, listed, member⟩)

/-- A nonterminal has a cell on a span just if it derives its words. -/
theorem isSome_cellAt?_iff (ordered : span.start ≤ span.stop)
    (admitted : chart.Admits span symbol) :
    (chart.cellAt? span symbol).isSome ↔
      ∃ tree : BareTree, tree.Derives chart.grammar
        (chart.grammar.symbolName symbol)
        (span.slice chart.words.toList) := by
  constructor
  · intro some
    obtain ⟨number, found⟩ := Option.isSome_iff_exists.mp some
    obtain ⟨cell, opened, rfl, rfl⟩ := filled.indexed.exists_cell admitted found
    obtain ⟨tree, member⟩ := List.exists_mem_of_ne_nil _
      (filled.bareTrees_ne_nil number (lt_size_of_getElem? opened))
    exact ⟨tree, (filled.mem_bareTrees_iff_derives opened).mp member⟩
  · rintro ⟨tree, conforms, symbols, sentence⟩
    obtain ⟨number, found, _⟩ := filled.complete conforms
      admitted.symbol_lt ordered admitted.stop_le symbols sentence
    exact Option.isSome_iff_exists.mpr ⟨number, found⟩

end Filled

end Chart

end Constituency
