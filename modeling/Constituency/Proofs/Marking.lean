import Constituency.Marking
import Constituency.Proofs.Cycle

/-!
# What the marks tell

The course of the search is laid down without a measure: a node that has its mark
is passed over, and any other one is marked and pushes what its arrows lead to.
A course has one outcome only, and the search comes to an end of it after no more
nodes than were on the stack or could be pushed.  What is marked on the way is
reached from the stack, and the arrows of marked nodes lead to nodes that are
marked or on the stack, so that in the end just those nodes are marked that can be
reached.
-/

namespace Constituency

namespace Marking

/-- From the given marks and stack so many nodes are taken until the stack is
empty, and the search ends with the outcome. -/
inductive Takes (arrows : Nat → List Nat) :
    (taken : Nat) → (marks : Array Bool) → (stack : List Nat) →
      (outcome : Array Bool) → Prop
  | done {marks : Array Bool} : Takes arrows 0 marks [] marks
  | passes {taken node : Nat} {marks outcome : Array Bool} {rest : List Nat}
      (marked : isMarked marks node = true)
      (others : Takes arrows taken marks rest outcome) :
      Takes arrows (taken + 1) marks (node :: rest) outcome
  | marks {taken node : Nat} {marks outcome : Array Bool} {rest : List Nat}
      (unmarked : isMarked marks node = false)
      (others : Takes arrows taken (mark marks node)
        (push (mark marks node) (arrows node) rest) outcome) :
      Takes arrows (taken + 1) marks (node :: rest) outcome

variable {arrows : Nat → List Nat} {marks outcome other : Array Bool}
variable {stack : List Nat} {taken taken' node target : Nat}

theorem Takes.unique (first : Takes arrows taken marks stack outcome)
    (second : Takes arrows taken' marks stack other) :
    taken = taken' ∧ outcome = other := by
  induction first generalizing taken' with
  | done => cases second; exact ⟨rfl, rfl⟩
  | passes marked _ ih =>
      cases second with
      | passes _ others =>
          obtain ⟨rfl, rfl⟩ := ih others
          exact ⟨rfl, rfl⟩
      | marks unmarked => simp [marked] at unmarked
  | marks unmarked _ ih =>
      cases second with
      | passes marked => simp [unmarked] at marked
      | marks _ others =>
          obtain ⟨rfl, rfl⟩ := ih others
          exact ⟨rfl, rfl⟩

/-- The search comes to an end of its course. -/
theorem takes_search (arrows : Nat → List Nat) (marks : Array Bool)
    (stack : List Nat) :
    ∃ taken ≤ stack.length + pending arrows marks,
      Takes arrows taken marks stack (search arrows marks stack) := by
  fun_induction search arrows marks stack with
  | case1 marks => exact ⟨0, by simp, .done⟩
  | case2 marks node rest marked ih =>
      obtain ⟨taken, few, course⟩ := ih
      exact ⟨taken + 1, by simp only [List.length_cons]; omega,
        .passes marked course⟩
  | case3 marks node rest unmarked ih =>
      obtain ⟨taken, few, course⟩ := ih
      have unmarked := Bool.not_eq_true _ ▸ unmarked
      have fewer := pending_mark arrows unmarked
      have pushed := length_push_le (mark marks node) (arrows node) rest
      exact ⟨taken + 1, by simp only [List.length_cons]; omega,
        .marks unmarked course⟩

theorem mem_push {targets : List Nat} :
    target ∈ push marks targets stack ↔
      target ∈ targets ∧ isMarked marks target = false ∨ target ∈ stack := by
  simp [push]

theorem size_mark : (mark marks node).size = marks.size :=
  Array.size_setIfInBounds

namespace Takes

theorem kept (course : Takes arrows taken marks stack outcome)
    (marked : isMarked marks node = true) : isMarked outcome node = true := by
  induction course with
  | done => exact marked
  | passes _ _ ih => exact ih marked
  | marks _ _ ih => exact ih (by simp [isMarked_mark, marked])

theorem marked_of_mem (course : Takes arrows taken marks stack outcome)
    (stacked : node ∈ stack) : isMarked outcome node = true := by
  induction course with
  | done => simp at stacked
  | passes marked others ih =>
      rcases List.mem_cons.mp stacked with rfl | stacked
      · exact others.kept marked
      · exact ih stacked
  | marks _ others ih =>
      rcases List.mem_cons.mp stacked with rfl | stacked
      · exact others.kept (by simp [isMarked_mark])
      · exact ih (mem_push.mpr (.inr stacked))

theorem size_eq (course : Takes arrows taken marks stack outcome) :
    outcome.size = marks.size := by
  induction course with
  | done => rfl
  | passes _ _ ih => exact ih
  | marks _ _ ih => rw [ih, size_mark]

/-- What has been marked on the way is reached from the stack. -/
theorem exists_reflTransGen (course : Takes arrows taken marks stack outcome)
    (marked : isMarked outcome node = true) :
    isMarked marks node = true ∨
      ∃ stacked ∈ stack,
        Relation.ReflTransGen (Cycle.Arrow arrows) stacked node := by
  induction course with
  | done => exact .inl marked
  | passes _ _ ih =>
      rcases ih marked with old | ⟨stacked, member, reaches⟩
      · exact .inl old
      · exact .inr ⟨stacked, List.mem_cons_of_mem _ member, reaches⟩
  | @marks _ taken' _ _ _ _ _ ih =>
      rcases ih marked with old | ⟨stacked, member, reaches⟩
      · rw [isMarked_mark, Bool.or_eq_true, beq_iff_eq] at old
        rcases old with old | rfl
        · exact .inl old
        · exact .inr ⟨_, List.mem_cons_self, .refl⟩
      · rcases mem_push.mp member with ⟨arrow, _⟩ | member
        · exact .inr ⟨_, List.mem_cons_self, .head arrow reaches⟩
        · exact .inr ⟨stacked, List.mem_cons_of_mem _ member, reaches⟩

end Takes

/-- The arrows of marked nodes lead to nodes that are marked or on the stack. -/
def ClosedUpTo (arrows : Nat → List Nat) (marks : Array Bool)
    (stack : List Nat) : Prop :=
  ∀ node < marks.size, isMarked marks node = true →
    ∀ target ∈ arrows node, isMarked marks target = true ∨ target ∈ stack

theorem ClosedUpTo.pass {rest : List Nat}
    (closed : ClosedUpTo arrows marks (node :: rest))
    (marked : isMarked marks node = true) : ClosedUpTo arrows marks rest := by
  intro source below sourceMarked target arrow
  rcases closed source below sourceMarked target arrow with old | stacked
  · exact .inl old
  · rcases List.mem_cons.mp stacked with rfl | stacked
    · exact .inl marked
    · exact .inr stacked

theorem ClosedUpTo.mark {rest : List Nat}
    (closed : ClosedUpTo arrows marks (node :: rest)) :
    ClosedUpTo arrows (mark marks node)
      (push (mark marks node) (arrows node) rest) := by
  intro source below sourceMarked target arrow
  rw [size_mark] at below
  cases found : isMarked (Marking.mark marks node) target with
  | true => exact .inl rfl
  | false =>
      right
      rw [isMarked_mark, Bool.or_eq_false_iff, beq_eq_false_iff_ne] at found
      obtain ⟨unmarked, different⟩ := found
      rw [isMarked_mark, Bool.or_eq_true, beq_iff_eq] at sourceMarked
      rcases sourceMarked with old | rfl
      · rcases closed source below old target arrow with marked | stacked
        · simp [unmarked] at marked
        · rcases List.mem_cons.mp stacked with rfl | stacked
          · exact absurd rfl different
          · exact mem_push.mpr (.inr stacked)
      · refine mem_push.mpr (.inl ⟨arrow, ?_⟩)
        rw [isMarked_mark, unmarked, beq_eq_false_iff_ne.mpr different]
        rfl

theorem Takes.closed (course : Takes arrows taken marks stack outcome)
    (closed : ClosedUpTo arrows marks stack) : ClosedUpTo arrows outcome [] := by
  induction course with
  | done => exact closed
  | passes marked _ ih => exact ih (closed.pass marked)
  | marks _ _ ih => exact ih closed.mark

theorem ClosedUpTo.isMarked_of_reflTransGen {start : Nat}
    (closed : ClosedUpTo arrows marks [])
    (within : ∀ node < marks.size, ∀ target ∈ arrows node, target < marks.size)
    (startBelow : start < marks.size) (marked : isMarked marks start = true)
    (reaches : Relation.ReflTransGen (Cycle.Arrow arrows) start node) :
    node < marks.size ∧ isMarked marks node = true := by
  induction reaches with
  | refl => exact ⟨startBelow, marked⟩
  | tail _ arrow ih =>
      obtain ⟨below, marked⟩ := ih
      exact ⟨within _ below _ arrow,
        (closed _ below marked _ arrow).resolve_right List.not_mem_nil⟩

section Start

variable {bound start : Nat}

theorem isMarked_replicate (below : node < bound) :
    isMarked (Array.replicate bound false) node = false := by
  simp [isMarked, below]

/-- From one node and without marks, the search marks just the nodes that can be
reached from it. -/
theorem isMarked_search_iff
    (within : ∀ node < bound, ∀ target ∈ arrows node, target < bound)
    (startBelow : start < bound) (below : node < bound) :
    isMarked (search arrows (Array.replicate bound false) [start]) node = true ↔
      Relation.ReflTransGen (Cycle.Arrow arrows) start node := by
  obtain ⟨taken, _, course⟩ :=
    takes_search arrows (Array.replicate bound false) [start]
  constructor
  · intro marked
    rcases course.exists_reflTransGen marked with old | ⟨_, member, reaches⟩
    · simp [isMarked_replicate below] at old
    · exact List.mem_singleton.mp member ▸ reaches
  · intro reaches
    have closed : ClosedUpTo arrows (Array.replicate bound false) [start] := by
      intro node below marked
      rw [Array.size_replicate] at below
      simp [isMarked_replicate below] at marked
    have sizeEq := course.size_eq.trans Array.size_replicate
    rw [← sizeEq] at within startBelow
    exact ((course.closed closed).isMarked_of_reflTransGen within startBelow
      (course.marked_of_mem (by simp)) reaches).2

theorem pending_replicate (arrows : Nat → List Nat) (bound : Nat) :
    pending arrows (Array.replicate bound false) =
      ((List.range bound).flatMap arrows).length := by
  rw [pending, Array.size_replicate]
  congr 1
  apply List.flatMap_congr
  intro node member
  simp [pendingFrom, isMarked_replicate (List.mem_range.mp member)]

end Start

end Marking

end Constituency
