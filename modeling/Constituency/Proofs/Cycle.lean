import Constituency.Proofs.Cycle.Course
import Mathlib.Logic.Relation

/-!
# What the search for a cycle finds

A node is finished once every arrow from it has been followed, so the finished
nodes stand in an order in which arrows only lead to nodes finished earlier.  If
the search closes no cycle, this order ranks all nodes such that every arrow
leads to a node of lower rank.  If the search does close a cycle, the node that
it names reaches itself, as every node of a path reaches the last one.
-/

namespace Constituency

namespace Cycle

variable {arrows : Nat → List Nat} {bound : Nat}
variable {path finished targets after : List Nat} {node target : Nat}

/-- Every arrow from a listed node leads to a node listed after it. -/
def Settled (arrows : Nat → List Nat) : List Nat → Prop
  | [] => True
  | node :: rest => arrows node ⊆ rest ∧ Settled arrows rest

theorem Settled.mem_of_arrow (settled : Settled arrows finished)
    (member : node ∈ finished) (arrow : target ∈ arrows node) :
    target ∈ finished := by
  induction finished with
  | nil => simp at member
  | cons first rest ih =>
      rcases List.mem_cons.mp member with rfl | inRest
      · exact List.mem_cons_of_mem _ (settled.1 arrow)
      · exact List.mem_cons_of_mem _ (ih settled.2 inRest)

/-- The finished nodes after a part of the search: they are settled, all nodes
finished before are among them, and none of them is on the path. -/
structure Continues (arrows : Nat → List Nat)
    (path before after : List Nat) : Prop where
  settled : Settled arrows after
  subset : before ⊆ after
  apart : path.Disjoint after

/-- A course that goes through its targets continues the search and finishes them
all. -/
theorem Explores.continues
    (course : Explores arrows path finished targets (.ok after))
    (settled : Settled arrows finished) (apart : path.Disjoint finished) :
    Continues arrows path finished after ∧ targets ⊆ after := by
  generalize complete : Except.ok (ε := Nat) after = outcome at course
  induction course generalizing after with
  | done =>
      obtain rfl := Except.ok.inj complete
      exact ⟨⟨settled, List.Subset.refl _, apart⟩, List.nil_subset _⟩
  | meets | closes => simp at complete
  | passes _ known _ ih =>
      have others := ih settled apart complete
      exact ⟨others.1,
        List.cons_subset.mpr ⟨others.1.subset known, others.2⟩⟩
  | @finishes path finished middle rest target _ offPath new _ _ belowIh
      othersIh =>
      have below := belowIh settled
        (List.disjoint_cons_left.mpr ⟨new, apart⟩) rfl
      have targetApart := List.disjoint_cons_left.mp below.1.apart
      have others := othersIh ⟨below.2, below.1.settled⟩
        (List.disjoint_cons_right.mpr ⟨offPath, targetApart.2⟩) complete
      have middleSubset := (List.cons_subset.mp others.1.subset).2
      have targetMem := (List.cons_subset.mp others.1.subset).1
      exact ⟨⟨others.1.settled, List.Subset.trans below.1.subset middleSubset,
          others.1.apart⟩,
        List.cons_subset.mpr ⟨targetMem, others.2⟩⟩

/-- Arrows from nodes that are done only lead to nodes that are done. -/
theorem Continues.marking_eq_done {before : List Nat}
    (continues : Continues arrows path before after)
    (done : marking path after node = .done) (arrow : target ∈ arrows node) :
    marking path after target = .done := by
  have member := continues.settled.mem_of_arrow (marking_eq_done_iff.mp done).2
    arrow
  exact marking_eq_done_iff.mpr
    ⟨fun onPath => continues.apart onPath member, member⟩

theorem exists_rank_of_settled {finished : List Nat}
    (settled : Settled arrows finished) :
    ∃ rank : Nat → Nat, ∀ node ∈ finished, rank node < finished.length ∧
      ∀ target ∈ arrows node, target ∈ finished ∧ rank target < rank node := by
  induction finished with
  | nil => exact ⟨id, by simp⟩
  | cons node rest ih =>
      obtain ⟨rank, ranked⟩ := ih settled.2
      by_cases again : node ∈ rest
      · refine ⟨rank, fun other member => ?_⟩
        have inRest : other ∈ rest := by
          rcases List.mem_cons.mp member with rfl | inRest
          · exact again
          · exact inRest
        refine ⟨Nat.lt_succ_of_lt (ranked other inRest).1,
          fun target arrow => ?_⟩
        have lower := (ranked other inRest).2 target arrow
        exact ⟨List.mem_cons_of_mem _ lower.1, lower.2⟩
      · have apart : ∀ other ∈ rest, other ≠ node :=
          fun other inRest equal => again (equal ▸ inRest)
        refine ⟨fun other => if other = node then rest.length else rank other,
          fun other member => ?_⟩
        rcases List.mem_cons.mp member with rfl | inRest
        · refine ⟨by simp, fun target arrow => ?_⟩
          have inRest := settled.1 arrow
          simp only [apart target inRest, if_false, if_true]
          exact ⟨List.mem_cons_of_mem _ inRest, (ranked target inRest).1⟩
        · simp only [apart other inRest, if_false]
          refine ⟨Nat.lt_succ_of_lt (ranked other inRest).1,
            fun target arrow => ?_⟩
          have lower := (ranked other inRest).2 target arrow
          simp only [apart target lower.1, if_false]
          exact ⟨List.mem_cons_of_mem _ lower.1, lower.2⟩

/-- If no cycle is found then the nodes have ranks that every arrow lowers. -/
theorem exists_rank_of_first?_eq_none
    (within : ∀ node < bound, ∀ target ∈ arrows node, target < bound)
    (acyclic : first? arrows bound = none) :
    ∃ (rank : Nat → Nat) (height : Nat), ∀ node < bound, rank node < height ∧
      ∀ target ∈ arrows node, rank target < rank node := by
  obtain ⟨finished, course⟩ := (first?_eq_none_iff within).mp acyclic
  have continues := course.continues trivial (List.disjoint_nil_left _)
  obtain ⟨rank, ranked⟩ := exists_rank_of_settled continues.1.settled
  refine ⟨rank, finished.length, fun node below => ?_⟩
  have bounded := ranked node (continues.2 (List.mem_range.mpr below))
  exact ⟨bounded.1, fun target arrow => (bounded.2 target arrow).2⟩

def Arrow (arrows : Nat → List Nat) (node target : Nat) : Prop :=
  target ∈ arrows node

theorem not_transGen_of_first?_eq_none
    (within : ∀ node < bound, ∀ target ∈ arrows node, target < bound)
    (acyclic : first? arrows bound = none) {node : Nat} (below : node < bound) :
    ¬ Relation.TransGen (Arrow arrows) node node := by
  obtain ⟨rank, height, ranked⟩ := exists_rank_of_first?_eq_none within acyclic
  have lower : ∀ target, Relation.TransGen (Arrow arrows) node target →
      target < bound ∧ rank target < rank node := by
    intro target reaches
    induction reaches with
    | single arrow => exact ⟨within _ below _ arrow, (ranked _ below).2 _ arrow⟩
    | tail _ arrow ih =>
        obtain ⟨middleBelow, middleLower⟩ := ih
        exact ⟨within _ middleBelow _ arrow,
          Nat.lt_trans ((ranked _ middleBelow).2 _ arrow) middleLower⟩
  intro cycle
  exact Nat.lt_irrefl _ (lower node cycle).2

/-- A course that the nodes of its path lead to names a node that reaches
itself. -/
theorem Explores.transGen
    (course : Explores arrows path finished targets (.error node))
    (reaches : ∀ earlier ∈ path, ∀ target ∈ targets,
      Relation.TransGen (Arrow arrows) earlier target) :
    Relation.TransGen (Arrow arrows) node node := by
  generalize failed : Except.error (α := List Nat) node = outcome at course
  induction course with
  | done => simp at failed
  | meets onPath =>
      obtain rfl := Except.error.inj failed
      exact reaches _ onPath _ (by simp)
  | passes _ _ _ ih | finishes _ _ _ _ _ ih =>
      exact ih (fun earlier member target inRest =>
        reaches earlier member target (by simp [inRest])) failed
  | closes _ _ _ ih =>
      refine ih (fun earlier member next arrow => ?_) failed
      have arrow : Arrow arrows _ next := arrow
      -- The whole path leads to the next node by the arrow to it.
      rcases List.mem_cons.mp member with rfl | onPath
      · exact .single arrow
      · exact (reaches earlier onPath _ (by simp)).tail arrow

theorem transGen_of_first?_eq_some
    (within : ∀ node < bound, ∀ target ∈ arrows node, target < bound)
    (found : first? arrows bound = some node) :
    Relation.TransGen (Arrow arrows) node node :=
  ((first?_eq_some_iff within).mp found).transGen (by simp)

end Cycle

end Constituency
