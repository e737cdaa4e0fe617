import Constituency.Proofs.Forest.Trees

/-!
# The order of the trees of a cell

The trees of a cell are listed in the order of derivations: derivations are
listed by their productions and split points, and the trees of one derivation by
the first child that differs.
-/

namespace Constituency

theorem BareTree.productionNumber_eq {grammar : Grammar}
    (wellFormed : grammar.WellFormed) {label : String}
    {children : List BareTree} {index : Nat}
    (found : grammar.productions[index]? =
      some ⟨label, children.map BareTree.symbol⟩) :
    productionNumber grammar label children = index := by
  rw [← Array.getElem?_toList] at found
  obtain ⟨within, same⟩ := List.getElem?_eq_some_iff.mp found
  rw [productionNumber, ← same]
  exact wellFormed.productions_nodup.idxOf_getElem index within

namespace Chart

variable {chart : Chart} {span : Span} {symbol : Nat}
variable {derivation first second : Derivation}
variable {trees firstTrees secondTrees : List BareTree}

theorem Builds.children_eq_nil_iff
    (builds : chart.Builds span symbol derivation) :
    derivation.children = [] ↔
      chart.grammar.numbered[derivation.production]? =
        some ⟨symbol, []⟩ := by
  cases builds with
  | lexical numbered => simp [numbered]
  | syntactic numbered nonempty tiled =>
      simp only [numbered, Option.some.injEq, NumberedProduction.mk.injEq,
        true_and]
      rw [← List.length_eq_zero_iff, tiled.length_eq, List.length_eq_zero_iff]

section Precedes

variable (filled : chart.Filled) (within : span.stop ≤ chart.words.size)

include filled within

theorem Grows.productionNumber_eq
    (grows : chart.Grows span symbol derivation trees)
    (sound : ∀ child ∈ derivation.children, chart.Sound child) :
    BareTree.productionNumber chart.grammar (chart.grammar.symbolName symbol)
      trees = derivation.production :=
  BareTree.productionNumber_eq filled.wellFormed
    (grows.sound filled within sound).1

theorem Grows.precedes
    (firstGrows : chart.Grows span symbol first firstTrees)
    (secondGrows : chart.Grows span symbol second secondTrees)
    (firstSound : ∀ child ∈ first.children, chart.Sound child)
    (secondSound : ∀ child ∈ second.children, chart.Sound child)
    (earlier : chart.Earlier first second) :
    BareTree.Precedes chart.grammar
      (.branch (chart.grammar.symbolName symbol) firstTrees)
      (.branch (chart.grammar.symbolName symbol) secondTrees) := by
  have firstNumber := firstGrows.productionNumber_eq filled within firstSound
  have secondNumber := secondGrows.productionNumber_eq filled within secondSound
  rcases earlier with lower | ⟨same, shorter⟩
  · exact .production (by rw [firstNumber, secondNumber]; exact lower)
  · -- Of one production either all derivations are lexical or none is.
    have secondNonempty : second.children ≠ [] := by
      intro lexical
      rw [splitPoints, splitPoints, lexical] at shorter
      simp at shorter
    have firstNonempty : first.children ≠ [] := by
      rwa [ne_eq, firstGrows.builds.children_eq_nil_iff, same,
        ← secondGrows.builds.children_eq_nil_iff]
    refine .split (by rw [firstNumber, secondNumber, same]) ?_
    rw [BareTree.splitPoints_lt_iff 0 span.start,
      (firstGrows.sound filled within firstSound).2.2.2 firstNonempty,
      (secondGrows.sound filled within secondSound).2.2.2 secondNonempty]
    exact shorter

/-- Trees of one derivation are in the order of the first children that
differ. -/
theorem Grows.precedes_of_firstDifference
    (firstGrows : chart.Grows span symbol derivation firstTrees)
    (secondGrows : chart.Grows span symbol derivation secondTrees)
    (sound : ∀ child ∈ derivation.children, chart.Sound child)
    (nonempty : derivation.children ≠ [])
    (difference : FirstDifference (BareTree.Precedes chart.grammar)
      firstTrees secondTrees) :
    BareTree.Precedes chart.grammar
      (.branch (chart.grammar.symbolName symbol) firstTrees)
      (.branch (chart.grammar.symbolName symbol) secondTrees) := by
  have firstNumber := firstGrows.productionNumber_eq filled within sound
  have secondNumber := secondGrows.productionNumber_eq filled within sound
  have firstSplits := (firstGrows.sound filled within sound).2.2.2 nonempty
  have secondSplits := (secondGrows.sound filled within sound).2.2.2 nonempty
  obtain ⟨before, left, right, firstRest, secondRest, rfl, rfl, lower⟩ :=
    difference
  refine .child (firstNumber.trans secondNumber.symm) ?_ lower
  rw [BareTree.splitPoints_eq_iff, ← BareTree.splitPoints_eq_iff span.start,
    firstSplits, secondSplits]

theorem pairwise_bareTreesOf
    (builds : chart.Builds span symbol derivation)
    (sound : ∀ child ∈ derivation.children, chart.Sound child)
    (ordered : ∀ child ∈ derivation.children,
      (chart.bareTrees child).Pairwise (BareTree.Precedes chart.grammar)) :
    (chart.bareTreesOf (chart.grammar.symbolName symbol) derivation).Pairwise
      (BareTree.Precedes chart.grammar) := by
  by_cases lexical : derivation.children = []
  · simp [bareTreesOf, lexical]
  · have treesEq : chart.bareTreesOf
        (chart.grammar.symbolName symbol) derivation =
        (tuples (derivation.children.map chart.bareTrees)).map
          (.branch (chart.grammar.symbolName symbol)) := by
      simp [bareTreesOf, lexical]
    have grows : ∀ trees ∈ tuples (derivation.children.map chart.bareTrees),
        chart.Grows span symbol derivation trees := by
      intro trees member
      obtain ⟨trees', same, grows⟩ := (mem_bareTreesOf filled.wellFormed
        builds).mp (treesEq ▸ List.mem_map_of_mem member)
      injection same with _ treesSame
      exact treesSame ▸ grows
    have choicesOrdered : ∀ choice ∈ derivation.children.map chart.bareTrees,
        choice.Pairwise (BareTree.Precedes chart.grammar) := by
      intro choice member
      obtain ⟨child, isChild, rfl⟩ := List.mem_map.mp member
      exact ordered child isChild
    rw [treesEq, List.pairwise_map]
    apply (pairwise_tuples choicesOrdered).imp_of_mem
    intro first second member member' difference
    exact (grows first member).precedes_of_firstDifference filled within
      (grows second member') sound lexical difference

end Precedes

/-- The trees of every cell are in order. -/
theorem Filled.pairwise_bareTrees (filled : chart.Filled) :
    ∀ number < chart.size,
      (chart.bareTrees number).Pairwise (BareTree.Precedes chart.grammar) := by
  obtain ⟨level, graded⟩ := filled.exists_graded
  refine graded.induction fun number cell opened below => ?_
  have within := (filled.indexed.admits opened).stop_le
  have childBelow : ∀ derivation ∈ cell.derivations.toList,
      ∀ child ∈ derivation.children, chart.Below child number :=
    fun derivation listed child member =>
      ⟨cell, opened, derivation, listed, member⟩
  have sound : ∀ derivation ∈ cell.derivations.toList,
      ∀ child ∈ derivation.children, chart.Sound child :=
    fun derivation listed child member => filled.sound child
      (graded.child_lt_size (childBelow derivation listed child member))
  rw [filled.bareTrees_eq opened]
  refine List.pairwise_flatMap.mpr ⟨fun derivation listed => ?_, ?_⟩
  · exact pairwise_bareTreesOf filled within ((filled.mem_iff opened).mp listed)
      (sound derivation listed)
      fun child member => below child (childBelow derivation listed child member)
  · apply (filled.pairwise opened).imp_of_mem
    intro first second firstListed secondListed earlier _ member _ member'
    obtain ⟨firstTrees, rfl, firstGrows⟩ := (mem_bareTreesOf filled.wellFormed
      ((filled.mem_iff opened).mp firstListed)).mp member
    obtain ⟨secondTrees, rfl, secondGrows⟩ := (mem_bareTreesOf filled.wellFormed
      ((filled.mem_iff opened).mp secondListed)).mp member'
    exact firstGrows.precedes filled within secondGrows
      (sound first firstListed) (sound second secondListed) earlier

end Chart

end Constituency
