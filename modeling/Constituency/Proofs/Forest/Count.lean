import Constituency.Proofs.Forest.Trees
import Mathlib.Algebra.Order.BigOperators.Group.List

/-!
# Counting the trees of a cell

The number of trees of a cell is a sum of products of the numbers of trees of the
cells below it.  Saturating every sum and every product on the way gives the same
as saturating the exact number at the end.
-/

namespace Constituency

theorem saturate_saturate_add (first second : Nat) :
    saturate (saturate first + saturate second) = saturate (first + second) := by
  simp only [saturate]
  omega

theorem saturate_saturate_mul (first second : Nat) :
    saturate (saturate first * saturate second) = saturate (first * second) := by
  simp only [saturate]
  have positive : 1 ≤ countLimit := by decide
  -- A factor at the limit keeps the product there unless the other is zero.
  rcases Nat.eq_zero_or_pos first with rfl | firstPos
  · simp
  rcases Nat.eq_zero_or_pos second with rfl | secondPos
  · simp
  rcases Nat.le_total first countLimit with firstLe | firstGe
  · rcases Nat.le_total second countLimit with secondLe | secondGe
    · rw [Nat.min_eq_left firstLe, Nat.min_eq_left secondLe]
    · rw [Nat.min_eq_left firstLe, Nat.min_eq_right secondGe,
        Nat.min_eq_right (Nat.le_mul_of_pos_left _ firstPos),
        Nat.min_eq_right (Nat.le_trans secondGe
          (Nat.le_mul_of_pos_left _ firstPos))]
  · have product := Nat.le_trans firstGe (Nat.le_mul_of_pos_right _ secondPos)
    have secondSome : 1 ≤ min second countLimit := by omega
    rw [Nat.min_eq_right firstGe, Nat.min_eq_right product,
      Nat.min_eq_right (Nat.le_mul_of_pos_right _ secondSome)]

namespace Forest

theorem countWays_map_saturate (counts : List Nat) :
    countWays (counts.map saturate) = saturate counts.prod := by
  have run : ∀ ways : Nat,
      (counts.map saturate).foldl
        (fun ways count => saturate (ways * count)) (saturate ways) =
        saturate (ways * counts.prod) := by
    induction counts with
    | nil => simp
    | cons count rest ih =>
        intro ways
        rw [List.map_cons, List.foldl_cons, saturate_saturate_mul, ih,
          List.prod_cons, Nat.mul_assoc]
  have start : saturate 1 = 1 := by decide
  rw [countWays, ← start, run, Nat.one_mul]

theorem countParts_eq_saturate (cell : Cell)
    (parts : List (Derivation × List Nat)) :
    countParts cell (parts.map fun part => (part.1, part.2.map saturate)) =
      saturate (parts.map fun part => part.2.prod).sum := by
  have run : ∀ total : Nat,
      (parts.map fun part => (part.1, part.2.map saturate)).foldl
        (fun total part => saturate (total + countWays part.2))
        (saturate total) =
        saturate (total + (parts.map fun part => part.2.prod).sum) := by
    induction parts with
    | nil => simp
    | cons part rest ih =>
        intro total
        rw [List.map_cons, List.foldl_cons, countWays_map_saturate,
          saturate_saturate_add, ih, List.map_cons, List.sum_cons,
          Nat.add_assoc]
  have start : saturate 0 = 0 := by decide
  rw [countParts, ← start, run, Nat.zero_add]

end Forest

namespace Chart

variable {chart : Chart}

theorem length_bareTreesOf (chart : Chart) (label : String)
    (derivation : Derivation) :
    (chart.bareTreesOf label derivation).length =
      (derivation.children.map fun child =>
        (chart.bareTrees child).length).prod := by
  rw [bareTreesOf]
  split
  · rename_i lexical
    rw [List.isEmpty_iff.mp lexical]
    rfl
  · rw [List.length_map, length_tuples, List.map_map]
    rfl

/-- A cell has at least as many trees as each cell below it: every tree of a child
is in a tree of the cell, as the other children have trees too. -/
theorem Filled.length_bareTrees_le_of_below (filled : chart.Filled)
    {child number : Nat} (below : chart.Below child number) :
    (chart.bareTrees child).length ≤ (chart.bareTrees number).length := by
  obtain ⟨level, graded⟩ := filled.exists_graded
  obtain ⟨cell, opened, derivation, listed, member⟩ := below
  have positive : 0 < (derivation.children.map fun child =>
      (chart.bareTrees child).length).prod := by
    apply List.prod_pos
    intro count among
    obtain ⟨other, isChild, rfl⟩ := List.mem_map.mp among
    have known := graded.child_lt_size ⟨cell, opened, derivation, listed, isChild⟩
    exact List.length_pos_iff.mpr (filled.bareTrees_ne_nil other known)
  calc (chart.bareTrees child).length
      ≤ (derivation.children.map fun child =>
          (chart.bareTrees child).length).prod :=
        Nat.le_of_dvd positive (List.dvd_prod (List.mem_map_of_mem member))
    _ = (chart.bareTreesOf (chart.grammar.symbolName cell.symbol)
          derivation).length := (length_bareTreesOf ..).symm
    _ ≤ (cell.derivations.toList.map fun derivation =>
          (chart.bareTreesOf (chart.grammar.symbolName cell.symbol)
            derivation).length).sum :=
        List.le_sum_of_mem (List.mem_map_of_mem listed)
    _ = (chart.bareTrees number).length := by
        rw [filled.bareTrees_eq opened, List.length_flatMap]

/-- The count of a cell is the number of its trees, saturated. -/
theorem Filled.evaluate_countParts_eq (filled : chart.Filled) :
    ∀ number < chart.size, chart.evaluate Forest.countParts number =
      saturate (chart.bareTrees number).length := by
  obtain ⟨level, graded⟩ := filled.exists_graded
  refine graded.induction fun number cell opened below => ?_
  rw [evaluate_eq graded opened, filled.bareTrees_eq opened]
  have parts : (cell.derivations.toList.map fun derivation =>
      (derivation, derivation.children.map
        (chart.evaluate Forest.countParts))) =
      (cell.derivations.toList.map fun derivation =>
        (derivation, derivation.children.map fun child =>
          (chart.bareTrees child).length)).map
        fun part => (part.1, part.2.map saturate) := by
    rw [List.map_map]
    apply List.map_congr_left
    intro derivation listed
    have children : derivation.children.map
        (chart.evaluate Forest.countParts) =
        derivation.children.map fun child =>
          saturate (chart.bareTrees child).length :=
      List.map_congr_left fun child member =>
        below child ⟨cell, opened, derivation, listed, member⟩
    simp [children]
  rw [parts, Forest.countParts_eq_saturate, List.length_flatMap, List.map_map]
  simp only [Function.comp_def, length_bareTreesOf]

end Chart

end Constituency
