import Constituency.Proofs.Forest.Evaluate
import Mathlib.Logic.Relation

/-!
# What is kept while a forest is evaluated

The evaluation of a cell keeps a value for each cell that can be reached from it
by going down, and for no others.  The value kept is the one that evaluating that
cell gives.
-/

namespace Constituency

theorem mapThreading_marks {α β γ σ : Type} {act : α → σ → β × σ}
    {P : σ → Prop} {marked : σ → γ → Prop} {marks : α → γ → Prop}
    {elements : List α} {state : σ}
    (each : ∀ element ∈ elements, ∀ state, P state →
      P (act element state).2 ∧ ∀ place, marked (act element state).2 place ↔
        marked state place ∨ marks element place)
    (sound : P state) :
    P (mapThreading act elements state).2 ∧
      ∀ place, marked (mapThreading act elements state).2 place ↔
        marked state place ∨ ∃ element ∈ elements, marks element place := by
  induction elements generalizing state with
  | nil => exact ⟨sound, by simp [mapThreading]⟩
  | cons element rest ih =>
      obtain ⟨soundNext, markedNext⟩ := each element (by simp) state sound
      obtain ⟨soundLast, markedLast⟩ := ih
        (fun other member => each other (by simp [member])) soundNext
      refine ⟨soundLast, fun place => ?_⟩
      rw [mapThreading]
      dsimp only
      rw [markedLast, markedNext, List.exists_mem_cons_iff, or_assoc]

namespace Chart

variable {β : Type} [Inhabited β]
variable {chart : Chart} {level : Nat → Nat} {number inner root : Nat}
variable {combine : Cell → List (Derivation × List β) → β}

def kept (chart : Chart) (combine : Cell → List (Derivation × List β) → β)
    (number : Nat) : Array (Option β) :=
  (chart.evaluateWith combine chart.size number
    (Array.replicate chart.size none)).2

/-- The cell can be reached by going down from a cell to its children. -/
def Under (chart : Chart) (inner number : Nat) : Prop :=
  Relation.ReflTransGen chart.Below inner number

omit [Inhabited β] in
theorem under_iff {cell : Cell} (opened : chart.cells[number]? = some cell) :
    chart.Under inner number ↔ inner = number ∨
      ∃ derivation ∈ cell.derivations.toList, ∃ child ∈ derivation.children,
        chart.Under inner child := by
  rw [Under, Relation.ReflTransGen.cases_tail_iff, eq_comm]
  apply or_congr_right
  constructor
  · rintro ⟨child, path, cell', opened', derivation, listed, member⟩
    obtain rfl : cell = cell' := Option.some.inj (opened.symm.trans opened')
    exact ⟨derivation, listed, child, member, path⟩
  · rintro ⟨derivation, listed, child, member, path⟩
    exact ⟨child, path, cell, opened, derivation, listed, member⟩

/-- A value has been kept for the cell. -/
def Keeps (found : Array (Option β)) (number : Nat) : Prop :=
  (found.getD number none).isSome

/-- There is a place for every cell, and wherever a value has been kept, values
have been kept for the cells below. -/
structure KeptDownward (chart : Chart) (found : Array (Option β)) : Prop where
  size_eq : found.size = chart.size
  keeps_child : ∀ {child number : Nat}, Keeps found number →
    chart.Below child number → Keeps found child

omit [Inhabited β] in
theorem KeptDownward.keeps_under {found : Array (Option β)}
    (downward : chart.KeptDownward found) (keeps : Keeps found number)
    (under : chart.Under inner number) : Keeps found inner := by
  induction under using Relation.ReflTransGen.head_induction_on with
  | refl => exact keeps
  | head below _ ih => exact downward.keeps_child ih below

omit [Inhabited β] in
theorem keeps_setIfInBounds {found : Array (Option β)} {value : β}
    (known : number < found.size) :
    Keeps (found.setIfInBounds number (some value)) inner ↔
      inner = number ∨ Keeps found inner := by
  rw [Keeps, Keeps, Array.getD_eq_getD_getElem?,
    Array.getD_eq_getD_getElem?, Array.getElem?_setIfInBounds]
  by_cases same : number = inner
  · subst inner
    simp [known]
  · simp [same, Ne.symm same]

/-- Evaluating a cell keeps values for just the cells under it, beside those kept
before. -/
theorem keeps_evaluateWith_iff (graded : chart.Graded level) {depth : Nat}
    {found : Array (Option β)} (known : number < chart.size)
    (enough : level number < depth) (downward : chart.KeptDownward found) :
    chart.KeptDownward (chart.evaluateWith combine depth number found).2 ∧
      ∀ inner, Keeps (chart.evaluateWith combine depth number found).2 inner ↔
        Keeps found inner ∨ chart.Under inner number := by
  induction depth generalizing number found with
  | zero => exact absurd enough (Nat.not_lt_zero _)
  | succ depth ih =>
      cases missing : found.getD number none with
      | some value =>
          have keeps : Keeps found number := by simp [Keeps, missing]
          rw [evaluateWith, missing]
          refine ⟨downward, fun inner => ⟨.inl, ?_⟩⟩
          rintro (keeps' | under)
          · exact keeps'
          · exact downward.keeps_under keeps under
      | none =>
          obtain ⟨cell, opened⟩ := exists_cell_of_lt_size known
          have part : ∀ derivation ∈ cell.derivations.toList, ∀ found,
              chart.KeptDownward found →
              chart.KeptDownward
                  (chart.partWith combine depth derivation found).2 ∧
                ∀ inner,
                  Keeps (chart.partWith combine depth derivation found).2 inner ↔
                    Keeps found inner ∨
                      ∃ child ∈ derivation.children, chart.Under inner child := by
            intro derivation listed found downward
            refine mapThreading_marks (fun child member found downward => ?_)
              downward
            have below : chart.Below child number :=
              ⟨cell, opened, derivation, listed, member⟩
            have lower := graded.lower below
            exact ih (graded.child_lt_size below) (by omega) downward
          obtain ⟨downward', keeps_iff⟩ := mapThreading_marks part downward
          rw [evaluateWith_succ missing opened]
          dsimp only
          generalize (mapThreading (chart.partWith combine depth)
            cell.derivations.toList found).2 = found' at downward' keeps_iff ⊢
          have inside : number < found'.size := downward'.size_eq ▸ known
          refine ⟨⟨?_, ?_⟩, fun inner => ?_⟩
          · rw [Array.size_setIfInBounds, downward'.size_eq]
          · intro child parent keeps below
            rw [keeps_setIfInBounds inside] at keeps ⊢
            right
            rcases keeps with rfl | keeps
            · obtain ⟨cell', opened', derivation, listed, member⟩ := below
              obtain rfl : cell = cell' :=
                Option.some.inj (opened.symm.trans opened')
              exact (keeps_iff child).mpr
                (.inr ⟨derivation, listed, child, member, .refl⟩)
            · exact downward'.keeps_child keeps below
          · rw [keeps_setIfInBounds inside, keeps_iff, under_iff opened,
              or_left_comm]

theorem lt_size_of_under (graded : chart.Graded level)
    (known : number < chart.size) (under : chart.Under inner number) :
    inner < chart.size := by
  induction under using Relation.ReflTransGen.head_induction_on with
  | refl => exact known
  | head below _ _ => exact graded.child_lt_size below

omit [Inhabited β] in
theorem not_keeps_replicate_none (count inner : Nat) :
    ¬ Keeps (Array.replicate count (none : Option β)) inner := by
  rw [Keeps, Array.getD_eq_getD_getElem?, Array.getElem?_replicate]
  split <;> simp

theorem keeps_kept_iff (graded : chart.Graded level)
    (known : number < chart.size) :
    Keeps (chart.kept combine number) inner ↔ chart.Under inner number := by
  obtain ⟨bounded, graded, bound⟩ := graded.exists_lt_size
  have downward : chart.KeptDownward
      (Array.replicate chart.size (none : Option β)) :=
    ⟨Array.size_replicate, fun keeps =>
      absurd keeps (not_keeps_replicate_none _ _)⟩
  rw [kept, (keeps_evaluateWith_iff graded known (bound number known)
    downward).2, or_iff_right (not_keeps_replicate_none _ _)]

theorem eq_evaluate_of_kept (graded : chart.Graded level)
    (known : number < chart.size) (innerKnown : inner < chart.size) {value : β}
    (found : (chart.kept combine number).getD inner none = some value) :
    value = chart.evaluate combine inner := by
  have valueEq : chart.evaluate combine inner =
      chart.valueWithin combine chart.size inner :=
    evaluate_eq_valueWithin graded inner innerKnown
  obtain ⟨bounded, graded, bound⟩ := graded.exists_lt_size
  have remembers : chart.Remembers combine (chart.kept combine number) :=
    (evaluateWith_spec graded bound known (bound number known)
      (chart.remembers_none combine)).2
  rw [valueEq]
  exact remembers found

/-- What has been kept are the values of the cells under the evaluated one. -/
theorem getD_kept_eq_some_iff (graded : chart.Graded level)
    (known : number < chart.size) {value : β} :
    (chart.kept combine number).getD inner none = some value ↔
      chart.Under inner number ∧ value = chart.evaluate combine inner := by
  have keeps_iff : Keeps (chart.kept combine number) inner ↔
      chart.Under inner number := keeps_kept_iff graded known
  constructor
  · intro found
    have under := keeps_iff.mp (Option.isSome_iff_exists.mpr ⟨value, found⟩)
    exact ⟨under, eq_evaluate_of_kept graded known
      (lt_size_of_under graded known under) found⟩
  · rintro ⟨under, rfl⟩
    obtain ⟨value, found⟩ := Option.isSome_iff_exists.mp (keeps_iff.mpr under)
    rw [found, eq_evaluate_of_kept graded known
      (lt_size_of_under graded known under) found]

end Chart

end Constituency
