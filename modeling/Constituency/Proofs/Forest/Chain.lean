import Constituency.Proofs.Forest.Graded
import Constituency.Proofs.ParseTree.Basic
import Constituency.Proofs.Selection
import Mathlib.Data.List.Chain
import Mathlib.Logic.Relation

/-!
# Chains of cells

In a filled chart every chain of cells, each a child of a derivation of the one
before, comes to an end: the levels along it fall.  So a search that follows
derivations never needs more depth than there are levels.  The branches of a tree
follow a chain of cells, and no two of them are a label on one span.
-/

namespace Constituency

namespace Chart

variable {chart : Chart} {level : Nat → Nat} {bound : Nat}

namespace Graded

theorem wellFounded (graded : chart.Graded level) :
    WellFounded chart.Below :=
  Subrelation.wf graded.lower (measure level).wf

theorem lower_of_transGen (graded : chart.Graded level) {inner number : Nat}
    (path : Relation.TransGen chart.Below inner number) :
    level inner < level number := by
  induction path with
  | single step => exact graded.lower step
  | tail _ step ih => exact Nat.lt_trans ih (graded.lower step)

theorem lt_size_of_transGen (graded : chart.Graded level) {inner number : Nat}
    (path : Relation.TransGen chart.Below inner number) :
    inner < chart.size := by
  obtain ⟨_, step, _⟩ := Relation.TransGen.head'_iff.mp path
  exact graded.child_lt_size step

theorem pairwise_of_isChain (graded : chart.Graded level) {chain : List Nat}
    (descends : chain.IsChain fun parent child => chart.Below child parent) :
    (chain.map level).Pairwise (· > ·) := by
  rw [← List.isChain_iff_pairwise, List.isChain_map]
  exact descends.imp fun _ _ => graded.lower

/-- A chain visits no cell twice, and has no more cells than there are levels. -/
theorem nodup_and_length_le_of_isChain (graded : chart.Graded level)
    (bounded : ∀ number < chart.size, level number < bound)
    {chain : List Nat} (known : ∀ number ∈ chain, number < chart.size)
    (descends : chain.IsChain fun parent child => chart.Below child parent) :
    chain.Nodup ∧ chain.length ≤ bound := by
  have distinct : (chain.map level).Nodup :=
    (graded.pairwise_of_isChain descends).imp fun lower => lower.ne'
  refine ⟨distinct.of_map level, ?_⟩
  have within : chain.map level ⊆ List.range bound := by
    intro value member
    obtain ⟨number, visited, rfl⟩ := List.mem_map.mp member
    exact List.mem_range.mpr (bounded number (known number visited))
  simpa using (distinct.subperm within).length_le

end Graded

section Depth

variable {β : Type} [Inhabited β]
variable {combine : Cell → List (Derivation × List β) → β}

theorem mapThreading_congr {α γ σ : Type} {act act' : α → σ → γ × σ}
    {elements : List α}
    (same : ∀ element ∈ elements, act element = act' element) (state : σ) :
    mapThreading act elements state = mapThreading act' elements state := by
  induction elements generalizing state with
  | nil => rfl
  | cons element rest ih =>
      have restSame := ih fun other member => same other (by simp [member])
      simp only [mapThreading, same element (by simp), restSame]

/-- More depth than the level of a cell makes no difference to the search. -/
theorem evaluateWith_congr (graded : chart.Graded level)
    {depth depth' number : Nat} (known : number < chart.size)
    (enough : level number < depth) (enough' : level number < depth') :
    chart.evaluateWith combine depth number =
      chart.evaluateWith combine depth' number := by
  -- A child is lower than its cell, so what is left of both depths is still more
  -- than its level.
  induction depth generalizing depth' number with
  | zero => exact absurd enough (Nat.not_lt_zero _)
  | succ depth ih =>
      cases depth' with
      | zero => exact absurd enough' (Nat.not_lt_zero _)
      | succ depth' =>
          obtain ⟨cell, opened⟩ := exists_cell_of_lt_size known
          have parts : ∀ derivation ∈ cell.derivations.toList,
              chart.partWith combine depth derivation =
                chart.partWith combine depth' derivation := by
            intro derivation listed
            have children : ∀ child ∈ derivation.children,
                chart.evaluateWith combine depth child =
                  chart.evaluateWith combine depth' child := by
              intro child member
              have below : chart.Below child number :=
                ⟨cell, opened, derivation, listed, member⟩
              have := graded.lower below
              exact ih (graded.child_lt_size below) (by omega) (by omega)
            funext found
            rw [partWith, partWith, mapThreading_congr children]
          funext found
          cases kept : found.getD number none with
          | some value => simp only [evaluateWith, kept]
          | none =>
              rw [evaluateWith_succ kept opened, evaluateWith_succ kept opened,
                mapThreading_congr parts]

theorem evaluateWith_of_bound_le (graded : chart.Graded level)
    (bounded : ∀ number < chart.size, level number < bound)
    {depth number : Nat} (known : number < chart.size)
    (enough : bound ≤ depth) :
    chart.evaluateWith combine depth number =
      chart.evaluateWith combine chart.size number := by
  -- The bound may be below the number of cells or above it, so the two depths are
  -- compared by way of one that exceeds both.
  obtain ⟨short, shortGraded, shortBounded⟩ := graded.exists_lt_size
  have deep := bounded number known
  have shallow := shortBounded number known
  calc chart.evaluateWith combine depth number
      = chart.evaluateWith combine (depth + chart.size) number :=
        evaluateWith_congr graded known (by omega) (by omega)
    _ = chart.evaluateWith combine chart.size number :=
        evaluateWith_congr shortGraded known (by omega) (by omega)

end Depth

def trees (chart : Chart) (number : Nat) : List ParseTree :=
  chart.evaluate (Forest.treesOfParts chart.grammar) number

theorem exists_derivation_of_mem_trees (graded : chart.Graded level)
    {number : Nat} {cell : Cell} (opened : chart.cells[number]? = some cell)
    {tree : ParseTree} (member : tree ∈ chart.trees number) :
    ∃ derivation ∈ cell.derivations.toList, ∃ children,
      tree = .branch (chart.grammar.symbolName cell.symbol) cell.span children ∧
      ((derivation.children = [] ∧ ∃ word, children = [.leaf word cell.span]) ∨
        derivation.children ≠ [] ∧
          List.Forall₂ (fun child inner => child ∈ chart.trees inner)
            children derivation.children) := by
  rw [trees, evaluate_eq graded opened, Forest.treesOfParts,
    List.flatMap_map, List.mem_flatMap] at member
  obtain ⟨derivation, listed, member⟩ := member
  refine ⟨derivation, listed, ?_⟩
  dsimp only at member
  split at member
  · rename_i lexical
    rw [List.mem_singleton] at member
    exact ⟨_, member, .inl ⟨List.isEmpty_iff.mp lexical, _, rfl⟩⟩
  · rename_i syntactic
    rw [selections_eq_tuples (by simpa using syntactic), List.mem_map] at member
    obtain ⟨children, selected, rfl⟩ := member
    rw [mem_tuples, List.forall₂_map_right_iff] at selected
    exact ⟨children, rfl, .inr ⟨by simpa using syntactic, selected⟩⟩

theorem exists_of_mem_trees (graded : chart.Graded level) {number : Nat}
    {cell : Cell} (opened : chart.cells[number]? = some cell)
    {tree : ParseTree} (member : tree ∈ chart.trees number) :
    ∃ children,
      tree = .branch (chart.grammar.symbolName cell.symbol) cell.span children ∧
      ∀ child ∈ children, (∃ word, child = .leaf word cell.span) ∨
        ∃ inner, chart.Below inner number ∧ child ∈ chart.trees inner := by
  obtain ⟨derivation, listed, children, treeEq, parts⟩ :=
    exists_derivation_of_mem_trees graded opened member
  refine ⟨children, treeEq, fun child childMember => ?_⟩
  rcases parts with ⟨_, word, rfl⟩ | ⟨_, selected⟩
  · exact .inl ⟨word, List.mem_singleton.mp childMember⟩
  · obtain ⟨place, placed⟩ := List.mem_iff_getElem?.mp childMember
    obtain ⟨inner, found, among⟩ := Grammar.getElem?_of_forall₂ selected placed
    have below : chart.Below inner number :=
      ⟨cell, opened, derivation, listed, List.mem_of_getElem? found⟩
    exact .inr ⟨inner, below, among⟩

/-- A branch below the root of a tree of a cell is a tree of a cell further
down. -/
theorem exists_transGen_of_mem_preorder (graded : chart.Graded level) :
    ∀ number < chart.size, ∀ tree ∈ chart.trees number,
      ∀ node ∈ ParseTree.preorderList tree.children, node.isBranch →
        ∃ inner, Relation.TransGen chart.Below inner number ∧
          node ∈ chart.trees inner := by
  refine graded.induction fun number cell opened below tree member => ?_
  obtain ⟨children, rfl, parts⟩ := exists_of_mem_trees graded opened member
  intro node nodeMember isBranch
  obtain ⟨child, childMember, nodeMember⟩ :=
    ParseTree.mem_preorderList.mp nodeMember
  rcases parts child childMember with ⟨word, rfl⟩ | ⟨inner, step, innerMember⟩
  · obtain rfl := List.mem_singleton.mp nodeMember
    simp [ParseTree.isBranch] at isBranch
  · rw [ParseTree.preorder_eq] at nodeMember
    rcases List.mem_cons.mp nodeMember with rfl | deeper
    · exact ⟨inner, .single step, innerMember⟩
    · obtain ⟨last, path, lastMember⟩ :=
        below inner step child innerMember node deeper isBranch
      exact ⟨last, path.tail step, lastMember⟩

theorem height_le_of_mem_trees (graded : chart.Graded level) :
    ∀ number < chart.size, ∀ tree ∈ chart.trees number,
      tree.height ≤ level number + 2 := by
  refine graded.induction fun number cell opened below tree member => ?_
  obtain ⟨children, rfl, parts⟩ := exists_of_mem_trees graded opened member
  have childrenLe : ParseTree.heightList children ≤ level number + 1 := by
    apply ParseTree.heightList_le_iff.mpr
    intro child childMember
    rcases parts child childMember with ⟨word, rfl⟩ | ⟨inner, step, innerMember⟩
    · simp [ParseTree.height]
    · have lower := graded.lower step
      have childLe := below inner step child innerMember
      omega
  rw [ParseTree.height]
  omega

/-- A branch is a nonterminal on the span of the cell whose tree it is, so that
the branches of one label on one span are trees of one cell. -/
theorem Filled.eq_of_mem_trees (filled : chart.Filled) {number inner : Nat}
    (known : number < chart.size) (innerKnown : inner < chart.size)
    {tree innerTree : ParseTree} (member : tree ∈ chart.trees number)
    (innerMember : innerTree ∈ chart.trees inner)
    (sameLabel : innerTree.label? = tree.label?)
    (sameSpan : innerTree.span = tree.span) : inner = number := by
  obtain ⟨level, graded⟩ := filled.exists_graded
  obtain ⟨cell, opened⟩ := exists_cell_of_lt_size known
  obtain ⟨innerCell, innerOpened⟩ := exists_cell_of_lt_size innerKnown
  obtain ⟨children, rfl, _⟩ := exists_of_mem_trees graded opened member
  obtain ⟨innerChildren, rfl, _⟩ :=
    exists_of_mem_trees graded innerOpened innerMember
  have sameSymbol : innerCell.symbol = cell.symbol :=
    Grammar.symbolName_injective filled.wellFormed.inverts
      (filled.indexed.admits innerOpened).symbol_lt
      (filled.indexed.admits opened).symbol_lt (Option.some.inj sameLabel)
  have sameSpan : innerCell.span = cell.span := sameSpan
  have found := filled.indexed.cellAt?_eq innerOpened
  rw [sameSymbol, sameSpan, filled.indexed.cellAt?_eq opened] at found
  exact (Option.some.inj found).symm

/-- No branch of a tree has below it one of the same label on the same span. -/
theorem Filled.no_repeated_label (filled : chart.Filled) {number : Nat}
    (known : number < chart.size) {tree : ParseTree}
    (member : tree ∈ chart.trees number) :
    ∀ node ∈ tree.preorder, ∀ inner ∈ ParseTree.preorderList node.children,
      ¬ (inner.label? = node.label? ∧ inner.span = node.span) := by
  -- Both branches are trees of cells, the lower one of a cell further down.  Of one
  -- label on one span they would be trees of one cell, which lies below itself.
  obtain ⟨level, graded⟩ := filled.exists_graded
  rintro node nodeMember inner innerMember ⟨sameLabel, sameSpan⟩
  cases node with
  | leaf => simp [ParseTree.children, ParseTree.preorderList] at innerMember
  | branch label span children =>
    cases inner with
    | leaf => simp [ParseTree.label?] at sameLabel
    | branch innerLabel innerSpan innerChildren =>
      obtain ⟨upper, upperKnown, upperMember⟩ : ∃ upper < chart.size,
          .branch label span children ∈ chart.trees upper := by
        rw [ParseTree.preorder_eq] at nodeMember
        rcases List.mem_cons.mp nodeMember with root | deeper
        · exact ⟨number, known, root ▸ member⟩
        · obtain ⟨upper, path, upperMember⟩ := exists_transGen_of_mem_preorder
            graded number known tree member _ deeper rfl
          exact ⟨upper, graded.lt_size_of_transGen path, upperMember⟩
      obtain ⟨lower, path, lowerMember⟩ := exists_transGen_of_mem_preorder
        graded upper upperKnown _ upperMember _ innerMember rfl
      obtain rfl := filled.eq_of_mem_trees upperKnown
        (graded.lt_size_of_transGen path) upperMember lowerMember sameLabel
        sameSpan
      exact Nat.lt_irrefl _ (graded.lower_of_transGen path)

end Chart

end Constituency
