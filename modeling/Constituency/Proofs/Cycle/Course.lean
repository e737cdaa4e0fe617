import Constituency.Cycle
import Mathlib.Data.List.Nodup
import Mathlib.Data.List.Perm.Subperm
import Mathlib.Logic.Function.Basic

/-!
# The course of the search for a cycle

The course of the search is laid down without a bound on its steps: a target on
the path ends the search, a finished target is passed over, and a new target is
explored before the next one.  A course that comes to an end has one outcome
only.  The search with a step for every node comes to an end of this course, so
the bound never cuts it short.

The path and the finished nodes stand for a mark at every node, which is made
active when the node is entered and done when the last arrow from it has been
followed.  The course can be read off the marks alone.
-/

namespace Constituency

namespace Cycle

/-- The search that has come along a path, with some nodes finished, goes through
the targets from left to right and ends with the outcome. -/
inductive Explores (arrows : Nat → List Nat) :
    (path finished targets : List Nat) → (outcome : Except Nat (List Nat)) → Prop
  | done {path finished : List Nat} : Explores arrows path finished [] (.ok finished)
  | meets {path finished rest : List Nat} {target : Nat} (onPath : target ∈ path) :
      Explores arrows path finished (target :: rest) (.error target)
  | passes {path finished rest : List Nat} {target : Nat}
      {outcome : Except Nat (List Nat)} (offPath : target ∉ path)
      (known : target ∈ finished)
      (others : Explores arrows path finished rest outcome) :
      Explores arrows path finished (target :: rest) outcome
  | closes {path finished rest : List Nat} {target node : Nat}
      (offPath : target ∉ path) (new : target ∉ finished)
      (below : Explores arrows (target :: path) finished (arrows target)
        (.error node)) :
      Explores arrows path finished (target :: rest) (.error node)
  | finishes {path finished after rest : List Nat} {target : Nat}
      {outcome : Except Nat (List Nat)} (offPath : target ∉ path)
      (new : target ∉ finished)
      (below : Explores arrows (target :: path) finished (arrows target)
        (.ok after))
      (others : Explores arrows path (target :: after) rest outcome) :
      Explores arrows path finished (target :: rest) outcome

variable {arrows : Nat → List Nat} {bound : Nat}
variable {path finished targets : List Nat}
variable {outcome other : Except Nat (List Nat)}

theorem Explores.unique (first : Explores arrows path finished targets outcome)
    (second : Explores arrows path finished targets other) :
    outcome = other := by
  induction first generalizing other with
  | done => cases second; rfl
  | meets onPath =>
      cases second with
      | meets => rfl
      | passes offPath | closes offPath | finishes offPath =>
          exact absurd onPath offPath
  | passes offPath known _ ih =>
      cases second with
      | meets onPath => exact absurd onPath offPath
      | passes _ _ others => exact ih others
      | closes _ new | finishes _ new => exact absurd known new
  | closes offPath new _ ih =>
      cases second with
      | meets onPath => exact absurd onPath offPath
      | passes _ known => exact absurd known new
      | closes _ _ below => exact ih below
      | finishes _ _ below => exact absurd (ih below) (by simp)
  | finishes offPath new _ _ belowIh othersIh =>
      cases second with
      | meets onPath => exact absurd onPath offPath
      | passes _ known => exact absurd known new
      | closes _ _ below => exact absurd (belowIh below) (by simp)
      | finishes _ _ below others =>
          obtain rfl := Except.ok.inj (belowIh below)
          exact othersIh others

theorem searchFrom_succ (steps : Nat) (path finished : List Nat) (node : Nat) :
    searchFrom arrows (steps + 1) path finished node =
      ((arrows node).foldlM
        (fun finished target =>
          if target ∈ node :: path then .error target
          else if target ∈ finished then .ok finished
          else searchFrom arrows steps (node :: path) finished target)
        finished).map (node :: ·) := by
  rw [searchFrom]
  cases (arrows node).foldlM
    (fun finished target =>
      if target ∈ node :: path then Except.error target
      else if target ∈ finished then .ok finished
      else searchFrom arrows steps (node :: path) finished target)
    finished <;> rfl

/-- A path without repetitions is no longer than there are nodes. -/
theorem length_le_of_nodup (distinct : path.Nodup)
    (below : ∀ node ∈ path, node < bound) : path.length ≤ bound := by
  have included : path ⊆ List.range bound := fun node member =>
    List.mem_range.mpr (below node member)
  simpa using (distinct.subperm included).length_le

/-- If visiting each target explores it, then going through the targets is the
course of the search. -/
theorem explores_foldlM {visit : List Nat → Nat → Except Nat (List Nat)}
    (visits : ∀ target ∈ targets, target ∉ path → ∀ finished,
      ∃ outcome, Explores arrows (target :: path) finished (arrows target)
          outcome ∧
        visit finished target = outcome.map (target :: ·)) :
    Explores arrows path finished targets
      (targets.foldlM
        (fun finished target =>
          if target ∈ path then .error target
          else if target ∈ finished then .ok finished
          else visit finished target)
        finished) := by
  induction targets generalizing finished with
  | nil => exact .done
  | cons target rest ih =>
      have others := fun finished => @ih finished fun other member =>
        visits other (by simp [member])
      rw [List.foldlM_cons]
      by_cases onPath : target ∈ path
      · rw [if_pos onPath]
        exact .meets onPath
      · rw [if_neg onPath]
        by_cases known : target ∈ finished
        · rw [if_pos known]
          exact .passes onPath known (others finished)
        · rw [if_neg known]
          obtain ⟨outcome, below, visitEq⟩ :=
            visits target (by simp) onPath finished
          rw [visitEq]
          cases outcome with
          | error node => exact .closes onPath known below
          | ok after => exact .finishes onPath known below (others _)

/-- A search from a new node explores it, as long as there are steps left for
every node that is not on the path. -/
theorem explores_searchFrom
    (within : ∀ node < bound, ∀ target ∈ arrows node, target < bound)
    {steps : Nat} {node : Nat} (enough : bound ≤ steps + path.length)
    (distinct : (node :: path).Nodup)
    (below : ∀ visited ∈ node :: path, visited < bound) :
    ∃ outcome, Explores arrows (node :: path) finished (arrows node) outcome ∧
      searchFrom arrows steps path finished node =
        outcome.map (node :: ·) := by
  induction steps generalizing path finished node with
  | zero =>
      have pathLength := length_le_of_nodup distinct below
      simp only [List.length_cons] at pathLength
      omega
  | succ steps ih =>
      refine ⟨_, ?_, searchFrom_succ steps path finished node⟩
      apply explores_foldlM
      intro target member offPath finished
      apply ih
      · simp only [List.length_cons]
        omega
      · exact List.nodup_cons.mpr ⟨offPath, distinct⟩
      · exact List.forall_mem_cons.mpr
          ⟨within node (below node (by simp)) target member, below⟩

/-- The search from every node comes to an end of its course. -/
theorem explores_search
    (within : ∀ node < bound, ∀ target ∈ arrows node, target < bound) :
    Explores arrows [] [] (List.range bound) (search arrows bound) := by
  have course : Explores arrows [] [] (List.range bound)
      ((List.range bound).foldlM
        (fun finished node =>
          if node ∈ [] then .error node
          else if node ∈ finished then .ok finished
          else searchFrom arrows bound [] finished node)
        []) := by
    apply explores_foldlM
    intro node member _ finished
    exact explores_searchFrom within (by simp) (by simp)
      (by simpa using member)
  simp only [List.not_mem_nil, if_false] at course
  exact course

theorem first?_eq_some_iff
    (within : ∀ node < bound, ∀ target ∈ arrows node, target < bound)
    {node : Nat} :
    first? arrows bound = some node ↔
      Explores arrows [] [] (List.range bound) (.error node) := by
  have course := explores_search within
  rw [first?]
  constructor
  · intro found
    split at found
    · rename_i other failed
      obtain rfl := Option.some.inj found
      exact failed ▸ course
    · simp at found
  · intro met
    rw [course.unique met]

theorem first?_eq_none_iff
    (within : ∀ node < bound, ∀ target ∈ arrows node, target < bound) :
    first? arrows bound = none ↔
      ∃ finished, Explores arrows [] [] (List.range bound) (.ok finished) := by
  have course := explores_search within
  rw [first?]
  constructor
  · intro acyclic
    split at acyclic
    · simp at acyclic
    · rename_i finished done
      exact ⟨finished, done ▸ course⟩
  · rintro ⟨finished, complete⟩
    rw [course.unique complete]

inductive Mark where
  | new
  | active
  | done
deriving DecidableEq, Repr

/-- The marks at the nodes when the search has come along the path, with some
nodes finished. -/
def marking (path finished : List Nat) (node : Nat) : Mark :=
  if node ∈ path then .active
  else if node ∈ finished then .done
  else .new

theorem marking_eq_active_iff {node : Nat} :
    marking path finished node = .active ↔ node ∈ path := by
  simp only [marking]
  split
  · simp_all
  · split <;> simp_all

theorem marking_eq_done_iff {node : Nat} :
    marking path finished node = .done ↔ node ∉ path ∧ node ∈ finished := by
  simp only [marking]
  split
  · simp_all
  · split <;> simp_all

theorem marking_eq_new_iff {node : Nat} :
    marking path finished node = .new ↔ node ∉ path ∧ node ∉ finished := by
  simp only [marking]
  split
  · simp_all
  · split <;> simp_all

/-- To come to a node is to make its mark active. -/
theorem marking_cons_path (node : Nat) :
    marking (node :: path) finished =
      Function.update (marking path finished) node .active := by
  funext other
  by_cases same : other = node
  · subst same
    simp [marking]
  · simp [marking, same]

/-- To finish the last node of the path is to change its mark to done. -/
theorem marking_cons_finished {node : Nat} (offPath : node ∉ path) :
    marking path (node :: finished) =
      Function.update (marking (node :: path) finished) node .done := by
  funext other
  by_cases same : other = node
  · subst same
    simp [marking, offPath]
  · simp [marking, same]

/-- The course of the search over marks: an active target ends the search, a
target that is done is passed over, and a new target is made active, explored
and made done before the next one. -/
inductive Visits (arrows : Nat → List Nat) :
    (marks : Nat → Mark) → (targets : List Nat) →
      (outcome : Except Nat (Nat → Mark)) → Prop
  | done {marks : Nat → Mark} : Visits arrows marks [] (.ok marks)
  | meets {marks : Nat → Mark} {rest : List Nat} {target : Nat}
      (active : marks target = .active) :
      Visits arrows marks (target :: rest) (.error target)
  | passes {marks : Nat → Mark} {rest : List Nat} {target : Nat}
      {outcome : Except Nat (Nat → Mark)} (known : marks target = .done)
      (others : Visits arrows marks rest outcome) :
      Visits arrows marks (target :: rest) outcome
  | closes {marks : Nat → Mark} {rest : List Nat} {target node : Nat}
      (new : marks target = .new)
      (below : Visits arrows (Function.update marks target .active)
        (arrows target) (.error node)) :
      Visits arrows marks (target :: rest) (.error node)
  | finishes {marks after : Nat → Mark} {rest : List Nat} {target : Nat}
      {outcome : Except Nat (Nat → Mark)} (new : marks target = .new)
      (below : Visits arrows (Function.update marks target .active)
        (arrows target) (.ok after))
      (others : Visits arrows (Function.update after target .done) rest
        outcome) :
      Visits arrows marks (target :: rest) outcome

/-- The course with a path and finished nodes is the course over their marks. -/
theorem Explores.visits (course : Explores arrows path finished targets outcome) :
    Visits arrows (marking path finished) targets
      (outcome.map (marking path)) := by
  induction course with
  | done => exact .done
  | meets onPath => exact .meets (marking_eq_active_iff.mpr onPath)
  | passes offPath known _ ih =>
      exact .passes (marking_eq_done_iff.mpr ⟨offPath, known⟩) ih
  | closes offPath new _ ih =>
      rw [marking_cons_path] at ih
      exact .closes (marking_eq_new_iff.mpr ⟨offPath, new⟩) ih
  | finishes offPath new _ _ belowIh othersIh =>
      rw [marking_cons_path] at belowIh
      rw [marking_cons_finished offPath] at othersIh
      exact .finishes (marking_eq_new_iff.mpr ⟨offPath, new⟩) belowIh othersIh

/-- The search with new marks everywhere ends with the outcome of the search from
every node. -/
theorem visits_search
    (within : ∀ node < bound, ∀ target ∈ arrows node, target < bound) :
    Visits arrows (fun _ => .new) (List.range bound)
      ((search arrows bound).map (marking [])) := by
  have unmarked : marking [] [] = fun _ => .new := by
    funext node
    simp [marking]
  exact unmarked ▸ (explores_search within).visits

end Cycle

end Constituency
