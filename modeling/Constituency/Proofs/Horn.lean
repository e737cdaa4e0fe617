import Constituency.Horn
import Mathlib.Data.List.Basic

/-!
# The closure of Horn clauses

The closure of a set of facts holds just what follows from it by the clauses.
Every round but the last makes the head of some clause known for the first time,
so the number of clauses with unknown heads bounds the rounds that are still to
be made, and the rounds settle.
-/

namespace Constituency

namespace HornClause

/-- What follows from the given facts by the clauses. -/
inductive Follows (clauses : List HornClause) (facts : List Nat) : Nat → Prop
  | given {fact : Nat} (member : fact ∈ facts) : Follows clauses facts fact
  | rule {clause : HornClause} (listed : clause ∈ clauses)
      (body : ∀ fact ∈ clause.body, Follows clauses facts fact) :
      Follows clauses facts clause.head

/-- No clause lets anything new be concluded. -/
def Closed (clauses : List HornClause) (known : List Nat) : Prop :=
  ∀ clause ∈ clauses, (∀ fact ∈ clause.body, fact ∈ known) →
    clause.head ∈ known

/-- The clauses whose heads are not known. -/
def pending (clauses : List HornClause) (known : List Nat) :
    List HornClause :=
  clauses.filter fun clause => clause.head ∉ known

/-- The course of the rounds until one of them concludes nothing new, however
many it takes: how many rounds are made, from which facts, and what is known in
the end. -/
inductive Settles (clauses : List HornClause) :
    (passes : Nat) → (known outcome : List Nat) → Prop
  | still {known : List Nat} (same : round clauses known = known) :
      Settles clauses 1 known known
  | again {passes : Nat} {known outcome : List Nat}
      (changed : round clauses known ≠ known)
      (rest : Settles clauses passes (round clauses known) outcome) :
      Settles clauses (passes + 1) known outcome

variable {clauses : List HornClause} {clause : HornClause}
variable {known facts : List Nat} {fact : Nat}

theorem mem_apply :
    fact ∈ apply known clause ↔ fact ∈ known ∨
      (∀ premise ∈ clause.body, premise ∈ known) ∧ fact = clause.head := by
  unfold apply
  split
  · rename_i old
    constructor
    · exact .inl
    · rintro (member | ⟨_, rfl⟩)
      · exact member
      · exact old
  · split
    · rename_i body
      rw [List.mem_cons, or_comm, and_iff_right body]
    · rename_i body
      exact (or_iff_left fun both => body both.1).symm

theorem subset_apply (known : List Nat) (clause : HornClause) :
    known ⊆ apply known clause :=
  fun _ member => mem_apply.mpr (.inl member)

theorem subset_round (clauses : List HornClause) (known : List Nat) :
    known ⊆ round clauses known := by
  induction clauses generalizing known with
  | nil => exact List.Subset.refl _
  | cons clause rest ih =>
      exact List.Subset.trans (subset_apply known clause) (ih _)

theorem subset_rounds (clauses : List HornClause) (remaining : Nat)
    (known : List Nat) : known ⊆ rounds clauses remaining known := by
  induction remaining generalizing known with
  | zero => exact List.Subset.refl _
  | succ remaining ih =>
      rw [rounds]
      split
      · exact List.Subset.refl _
      · exact List.Subset.trans (subset_round clauses known) (ih _)

theorem apply_eq_self_or_cons (known : List Nat) (clause : HornClause) :
    (apply known clause = known ∧ ((∀ fact ∈ clause.body, fact ∈ known) →
        clause.head ∈ known)) ∨
      apply known clause = clause.head :: known ∧ clause.head ∉ known := by
  by_cases old : clause.head ∈ known
  · left
    exact ⟨if_pos old, fun _ => old⟩
  · by_cases body : ∀ fact ∈ clause.body, fact ∈ known
    · right
      exact ⟨by rw [apply, if_neg old, if_pos body], old⟩
    · left
      exact ⟨by rw [apply, if_neg old, if_neg body],
        fun premises => absurd premises body⟩

/-- A round either finds the clauses closed, or makes the head of one of them
known. -/
theorem closed_or_exists_head (clauses : List HornClause) (known : List Nat) :
    (round clauses known = known ∧ Closed clauses known) ∨
      known.length < (round clauses known).length ∧
        ∃ clause ∈ clauses, clause.head ∉ known ∧
          clause.head ∈ round clauses known := by
  induction clauses generalizing known with
  | nil => exact .inl ⟨rfl, by simp [Closed]⟩
  | cons clause rest ih =>
      have roundEq : round (clause :: rest) known =
          round rest (apply known clause) := rfl
      rcases apply_eq_self_or_cons known clause with
        ⟨same, satisfied⟩ | ⟨applied, unknown⟩
      · rw [roundEq, same]
        rcases ih known with ⟨restSame, restClosed⟩ |
          ⟨longer, other, listed, unknown, found⟩
        · left
          exact ⟨restSame, List.forall_mem_cons.mpr ⟨satisfied, restClosed⟩⟩
        · right
          exact ⟨longer, other, by simp [listed], unknown, found⟩
      · right
        rw [roundEq, applied]
        have kept := subset_round rest (clause.head :: known)
        refine ⟨?_, clause, by simp, unknown, kept (by simp)⟩
        rcases ih (clause.head :: known) with ⟨restSame, _⟩ | ⟨longer, _⟩
        · rw [restSame]
          exact Nat.lt_succ_self _
        · exact Nat.lt_of_succ_lt longer

theorem pending_round_lt {other : HornClause} (listed : other ∈ clauses)
    (unknown : other.head ∉ known) (found : other.head ∈ round clauses known) :
    (pending clauses (round clauses known)).length <
      (pending clauses known).length := by
  have narrowed : pending clauses (round clauses known) =
      (pending clauses known).filter
        fun clause => clause.head ∉ round clauses known := by
    unfold pending
    rw [List.filter_filter]
    apply List.filter_congr
    intro clause _
    by_cases old : clause.head ∈ known
    · simp [old, subset_round clauses known old]
    · simp [old]
  rw [narrowed, List.length_filter_lt_length_iff_exists]
  exact ⟨other, by simp [pending, listed, unknown], by simpa using found⟩

theorem Settles.unique {passes passes' : Nat} {outcome outcome' : List Nat}
    (first : Settles clauses passes known outcome)
    (second : Settles clauses passes' known outcome') :
    passes = passes' ∧ outcome = outcome' := by
  induction first generalizing passes' with
  | still same =>
      cases second with
      | still _ => exact ⟨rfl, rfl⟩
      | again changed _ => exact absurd same changed
  | again changed _ ih =>
      cases second with
      | still same => exact absurd same changed
      | again _ rest =>
          obtain ⟨rfl, rfl⟩ := ih rest
          exact ⟨rfl, rfl⟩

theorem Settles.closed {passes : Nat} {outcome : List Nat}
    (course : Settles clauses passes known outcome) :
    Closed clauses outcome := by
  induction course with
  | @still known same =>
      rcases closed_or_exists_head clauses known with ⟨_, closed⟩ | ⟨longer, _⟩
      · exact closed
      · exact absurd (congrArg List.length same).symm (Nat.ne_of_lt longer)
  | again _ _ ih => exact ih

/-- With a round for every clause whose head is not known, the rounds go on until
one of them concludes nothing new. -/
theorem settles_rounds {remaining : Nat}
    (enough : (pending clauses known).length ≤ remaining) :
    ∃ passes ≤ remaining + 1,
      Settles clauses passes known (rounds clauses remaining known) := by
  induction remaining generalizing known with
  | zero =>
      have noneNew : ∀ clause ∈ clauses, clause.head ∈ known := by
        have none : pending clauses known = [] :=
          List.eq_nil_of_length_eq_zero (Nat.le_zero.mp enough)
        simpa using List.filter_eq_nil_iff.mp none
      rcases closed_or_exists_head clauses known with ⟨same, _⟩ |
        ⟨_, other, listed, unknown, _⟩
      · exact ⟨1, Nat.le_refl 1, .still same⟩
      · exact absurd (noneNew other listed) unknown
  | succ remaining ih =>
      rw [rounds]
      rcases closed_or_exists_head clauses known with ⟨same, _⟩ |
        ⟨longer, other, listed, unknown, found⟩
      · rw [if_pos (congrArg List.length same)]
        exact ⟨1, by omega, .still same⟩
      · rw [if_neg (Nat.ne_of_gt longer)]
        have fewer := pending_round_lt listed unknown found
        have enoughLeft : (pending clauses (round clauses known)).length ≤
            remaining := by omega
        obtain ⟨passes, bounded, rest⟩ := ih enoughLeft
        have changed : round clauses known ≠ known := fun same =>
          Nat.ne_of_gt longer (congrArg List.length same)
        exact ⟨passes + 1, by omega, .again changed rest⟩

/-- The rounds of the closure settle, after at most one more round than there are
clauses. -/
theorem settles_closure (clauses : List HornClause) (facts : List Nat) :
    ∃ passes ≤ clauses.length + 1,
      Settles clauses passes facts (closure clauses facts) :=
  settles_rounds (List.length_filter_le ..)

theorem follows_of_mem_round {tried : List HornClause}
    (included : tried ⊆ clauses)
    (sound : ∀ fact ∈ known, Follows clauses facts fact) :
    ∀ fact ∈ round tried known, Follows clauses facts fact := by
  induction tried generalizing known with
  | nil => exact sound
  | cons clause rest ih =>
      obtain ⟨listed, restIncluded⟩ := List.cons_subset.mp included
      apply ih restIncluded
      intro fact member
      rcases mem_apply.mp member with old | ⟨body, rfl⟩
      · exact sound fact old
      · exact .rule listed fun premise member =>
          sound premise (body premise member)

theorem follows_of_mem_rounds {remaining : Nat}
    (sound : ∀ fact ∈ known, Follows clauses facts fact) :
    ∀ fact ∈ rounds clauses remaining known, Follows clauses facts fact := by
  induction remaining generalizing known with
  | zero => exact sound
  | succ remaining ih =>
      rw [rounds]
      split
      · exact sound
      · exact ih (follows_of_mem_round (List.Subset.refl _) sound)

theorem mem_closure_iff :
    fact ∈ closure clauses facts ↔ Follows clauses facts fact := by
  constructor
  · exact follows_of_mem_rounds (fun _ member => .given member) fact
  · intro follows
    obtain ⟨passes, _, course⟩ := settles_closure clauses facts
    have closed := course.closed
    induction follows with
    | given member => exact subset_rounds clauses _ facts member
    | rule listed _ ih => exact closed _ listed ih

end HornClause

end Constituency
