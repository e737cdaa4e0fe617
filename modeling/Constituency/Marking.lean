/-!
# Marking what can be reached

The search runs through a directed graph whose nodes are the numbers below the
size of an array of marks.  It takes the topmost node from a stack, marks it, and
pushes the nodes that its arrows lead to.  Only nodes without a mark are pushed,
but a node may be pushed again before it is taken, and is then passed over when
it is taken again.
-/

namespace Constituency

namespace Marking

/-- Whether the node has its mark.  There is no mark to be made outside the
array. -/
def isMarked (marks : Array Bool) (node : Nat) : Bool :=
  marks.getD node true

/-- The nodes that a node without a mark can still push. -/
def pendingFrom (arrows : Nat → List Nat) (marks : Array Bool) (node : Nat) :
    List Nat :=
  if isMarked marks node then [] else arrows node

/-- The number of nodes that can still be pushed. -/
def pending (arrows : Nat → List Nat) (marks : Array Bool) : Nat :=
  ((List.range marks.size).flatMap (pendingFrom arrows marks)).length

def mark (marks : Array Bool) (node : Nat) : Array Bool :=
  marks.setIfInBounds node true

/-- The stack, with its top in front, after the nodes that arrows lead to have
been pushed in their order. -/
def push (marks : Array Bool) (targets stack : List Nat) : List Nat :=
  (targets.filter (!isMarked marks ·)).reverse ++ stack

theorem isMarked_mark (marks : Array Bool) (node other : Nat) :
    isMarked (mark marks node) other =
      (isMarked marks other || node == other) := by
  rw [isMarked, isMarked, mark, Array.getD_eq_getD_getElem?,
    Array.getD_eq_getD_getElem?, Array.getElem?_setIfInBounds]
  by_cases same : node = other
  · subst same
    by_cases below : node < marks.size <;> simp [below]
  · simp [same]

theorem lt_size_of_not_isMarked {marks : Array Bool} {node : Nat}
    (unmarked : isMarked marks node = false) : node < marks.size := by
  apply Decidable.byContradiction
  intro beyond
  simp [isMarked, Array.getD, beyond] at unmarked

theorem length_push_le (marks : Array Bool) (targets stack : List Nat) :
    (push marks targets stack).length ≤ targets.length + stack.length := by
  rw [push, List.length_append, List.length_reverse]
  exact Nat.add_le_add_right (List.length_filter_le _ targets) _

theorem length_flatMap_range_of_eq_nil {before after : Nat → List Nat}
    {place bound : Nat} (below : place < bound)
    (elsewhere : ∀ other, other ≠ place → after other = before other)
    (here : after place = []) :
    ((List.range bound).flatMap after).length + (before place).length =
      ((List.range bound).flatMap before).length := by
  induction bound with
  | zero => omega
  | succ bound ih =>
      simp only [List.range_succ, List.flatMap_append, List.length_append,
        List.flatMap_singleton]
      by_cases last : place = bound
      · subst last
        have same : (List.range place).map after =
            (List.range place).map before := by
          apply List.map_congr_left
          intro other member
          exact elsewhere other (Nat.ne_of_lt (List.mem_range.mp member))
        simp [List.flatMap_def, same, here]
      · have earlier := ih (by omega)
        rw [elsewhere bound (Ne.symm last)]
        omega

theorem pending_mark (arrows : Nat → List Nat) {marks : Array Bool} {node : Nat}
    (unmarked : isMarked marks node = false) :
    pending arrows (mark marks node) + (arrows node).length =
      pending arrows marks := by
  have sameSize : (mark marks node).size = marks.size :=
    Array.size_setIfInBounds
  have elsewhere : ∀ other, other ≠ node →
      pendingFrom arrows (mark marks node) other =
        pendingFrom arrows marks other := by
    intro other different
    simp [pendingFrom, isMarked_mark, Ne.symm different]
  have counted := length_flatMap_range_of_eq_nil
    (lt_size_of_not_isMarked unmarked) elsewhere
    (by simp [pendingFrom, isMarked_mark])
  rw [pending, pending, sameSize, ← counted]
  simp [pendingFrom, unmarked]

/-- The marks that the search ends with.  Every node that is taken is either
passed over, or can push its arrows no more. -/
def search (arrows : Nat → List Nat) (marks : Array Bool) :
    (stack : List Nat) → Array Bool
  | [] => marks
  | node :: rest =>
      if isMarked marks node then
        search arrows marks rest
      else
        search arrows (mark marks node)
          (push (mark marks node) (arrows node) rest)
termination_by stack => stack.length + pending arrows marks
decreasing_by
  · simp
  · rename_i unmarked
    have fewer := pending_mark arrows (Bool.not_eq_true _ ▸ unmarked)
    have pushed := length_push_le (mark marks node) (arrows node) rest
    rw [List.length_cons]
    omega

end Marking

end Constituency
