import Mathlib.Data.List.Basic

/-!
# Computations that may fail

What is done for the elements of a list in turn fails with the first failure, and
otherwise goes on from each outcome to the next.
-/

namespace Constituency

variable {α β ε : Type}

theorem map_eq_ok_iff {result : Except ε α} {change : α → β} {value : β} :
    result.map change = .ok value ↔
      ∃ inner, result = .ok inner ∧ change inner = value := by
  cases result <;> simp [Except.map]

variable {act : β → α → Except ε β} {elements before after : List α}
variable {element : α} {state last : β}

theorem foldlM_cons_eq_ok_iff :
    (element :: elements).foldlM act state = .ok last ↔
      ∃ next, act state element = .ok next ∧
        elements.foldlM act next = .ok last := by
  rw [List.foldlM_cons]
  cases act state element <;> simp [bind, Except.bind]

theorem exists_foldlM_eq_ok
    (done : ∀ element ∈ elements, ∀ state, ∃ next, act state element = .ok next)
    (state : β) : ∃ last, elements.foldlM act state = .ok last := by
  induction elements generalizing state with
  | nil => exact ⟨state, rfl⟩
  | cons element rest ih =>
      obtain ⟨first, restDone⟩ := List.forall_mem_cons.mp done
      obtain ⟨next, nextEq⟩ := first state
      obtain ⟨last, lastEq⟩ := ih restDone next
      exact ⟨last, foldlM_cons_eq_ok_iff.mpr ⟨next, nextEq, lastEq⟩⟩

theorem foldlM_eq_error {error : ε}
    (done : ∀ earlier ∈ before, ∀ state, ∃ next, act state earlier = .ok next)
    (failed : ∀ state, act state element = .error error) (state : β) :
    (before ++ element :: after).foldlM act state = .error error := by
  obtain ⟨next, nextEq⟩ := exists_foldlM_eq_ok done state
  rw [List.foldlM_append, nextEq]
  simp [bind, Except.bind, List.foldlM_cons, failed]

end Constituency
