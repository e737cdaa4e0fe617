import Constituency.Forest
import Constituency.Proofs.Chart.Arena
import Mathlib.Order.Interval.Finset.Nat

/-!
# Evaluating a packed forest

If no cell lies below itself, the value of a cell is combined from the values of
the cells below it.  That the value of a shared cell is found only once, and that
the search is no deeper than there are cells, makes no difference.
-/

namespace Constituency

/-- What is done for each element of a list in turn is done for the list, if it
preserves what it relies on. -/
theorem mapThreading_spec {α β σ : Type} {act : α → σ → β × σ} {value : α → β}
    {P : σ → Prop} {elements : List α} {state : σ}
    (each : ∀ element ∈ elements, ∀ state, P state →
      (act element state).1 = value element ∧ P (act element state).2)
    (sound : P state) :
    (mapThreading act elements state).1 = elements.map value ∧
      P (mapThreading act elements state).2 := by
  induction elements generalizing state with
  | nil => exact ⟨rfl, sound⟩
  | cons element rest ih =>
      obtain ⟨valueEq, soundNext⟩ := each element (by simp) state sound
      obtain ⟨valuesEq, soundLast⟩ := ih
        (fun other member => each other (by simp [member])) soundNext
      rw [mapThreading]
      exact ⟨by rw [List.map_cons, ← valueEq, ← valuesEq], soundLast⟩

/-- The levels of so many elements can be compressed below their number: the level
of an element can be the number of elements of lower level. -/
theorem exists_compressed (level : Nat → Nat) (count : Nat) :
    ∃ compressed : Nat → Nat,
      (∀ number < count, compressed number < count) ∧
      ∀ low < count, ∀ high, level low < level high →
        compressed low < compressed high := by
  -- An element below another is among the elements lower than that one, but not
  -- among the elements lower than itself.
  let lowerThan : Nat → Finset Nat := fun number =>
    (Finset.range count).filter fun other => level other < level number
  refine ⟨fun number => (lowerThan number).card, ?_, ?_⟩
  · intro number known
    calc (lowerThan number).card
        < (Finset.range count).card := by
          refine Finset.card_lt_card (Finset.ssubset_iff_of_subset
            (Finset.filter_subset ..) |>.mpr ⟨number, ?_, ?_⟩)
          · exact Finset.mem_range.mpr known
          · simp
      _ = count := Finset.card_range _
  · intro low known high lower
    refine Finset.card_lt_card (Finset.ssubset_iff_of_subset ?_ |>.mpr
      ⟨low, ?_, ?_⟩)
    · intro other member
      simp only [lowerThan, Finset.mem_filter] at member ⊢
      exact ⟨member.1, Nat.lt_trans member.2 lower⟩
    · simp only [lowerThan, Finset.mem_filter, Finset.mem_range]
      exact ⟨known, lower⟩
    · simp [lowerThan]

namespace Chart

variable {β : Type} [Inhabited β]
variable {chart : Chart} {level : Nat → Nat}
variable {combine : Cell → List (Derivation × List β) → β}

/-- The cell is a child of a derivation of the other cell. -/
def Below (chart : Chart) (child number : Nat) : Prop :=
  ∃ cell, chart.cells[number]? = some cell ∧
    ∃ derivation ∈ cell.derivations.toList, child ∈ derivation.children

/-- The cells below a cell lie in the arena, and have lower levels. -/
structure Graded (chart : Chart) (level : Nat → Nat) : Prop where
  child_lt_size : ∀ {child number : Nat}, chart.Below child number →
    child < chart.size
  lower : ∀ {child number : Nat}, chart.Below child number →
    level child < level number

namespace Graded

theorem induction (graded : chart.Graded level) {P : Nat → Prop}
    (pass : ∀ number cell, chart.cells[number]? = some cell →
      (∀ child, chart.Below child number → P child) → P number) :
    ∀ number < chart.size, P number := by
  have main : ∀ bound number, level number < bound → number < chart.size →
      P number := by
    intro bound
    induction bound with
    | zero => exact fun _ lower => absurd lower (Nat.not_lt_zero _)
    | succ bound ih =>
        intro number lower known
        obtain ⟨cell, opened⟩ := exists_cell_of_lt_size known
        apply pass number cell opened
        intro child below
        have := graded.lower below
        exact ih child (by omega) (graded.child_lt_size below)
  exact fun number known => main (level number + 1) number (Nat.lt_succ_self _)
    known

theorem exists_lt_size (graded : chart.Graded level) :
    ∃ bounded, chart.Graded bounded ∧
      ∀ number < chart.size, bounded number < chart.size := by
  obtain ⟨bounded, within, lower⟩ := exists_compressed level chart.size
  refine ⟨bounded, ⟨graded.child_lt_size, fun below => ?_⟩, within⟩
  exact lower _ (graded.child_lt_size below) _ (graded.lower below)

end Graded

/-- The value of a cell found without keeping values. -/
def valueWithin (chart : Chart)
    (combine : Cell → List (Derivation × List β) → β) : Nat → Nat → β
  | 0, _ => default
  | depth + 1, number =>
      match chart.cells[number]? with
      | none => default
      | some cell =>
          combine cell (cell.derivations.toList.map fun derivation =>
            (derivation,
              derivation.children.map (valueWithin chart combine depth)))

theorem valueWithin_succ {depth number : Nat} {cell : Cell}
    (opened : chart.cells[number]? = some cell) :
    chart.valueWithin combine (depth + 1) number =
      combine cell (cell.derivations.toList.map fun derivation =>
        (derivation,
          derivation.children.map (chart.valueWithin combine depth))) := by
  rw [valueWithin, opened]

omit [Inhabited β] in
private theorem parts_congr {value value' : Nat → β} {number : Nat} {cell : Cell}
    (opened : chart.cells[number]? = some cell)
    (agree : ∀ child, chart.Below child number → value child = value' child) :
    (cell.derivations.toList.map fun derivation =>
        (derivation, derivation.children.map value)) =
      cell.derivations.toList.map fun derivation =>
        (derivation, derivation.children.map value') := by
  apply List.map_congr_left
  intro derivation listed
  rw [List.map_congr_left fun child member =>
    agree child ⟨cell, opened, derivation, listed, member⟩]

/-- More depth than the level of a cell makes no difference. -/
theorem valueWithin_eq (graded : chart.Graded level) {depth depth' number : Nat}
    (known : number < chart.size) (enough : level number < depth)
    (enough' : level number < depth') :
    chart.valueWithin combine depth number =
      chart.valueWithin combine depth' number := by
  induction depth generalizing depth' number with
  | zero => exact absurd enough (Nat.not_lt_zero _)
  | succ depth ih =>
      cases depth' with
      | zero => exact absurd enough' (Nat.not_lt_zero _)
      | succ depth' =>
          obtain ⟨cell, opened⟩ := exists_cell_of_lt_size known
          rw [valueWithin_succ opened, valueWithin_succ opened,
            parts_congr opened fun child below => ?_]
          have := graded.lower below
          exact ih (graded.child_lt_size below) (by omega) (by omega)

/-- The kept values are those found without keeping values. -/
def Remembers (chart : Chart) (combine : Cell → List (Derivation × List β) → β)
    (found : Array (Option β)) : Prop :=
  ∀ {number : Nat} {value : β}, found.getD number none = some value →
    value = chart.valueWithin combine chart.size number

theorem Remembers.setIfInBounds {found : Array (Option β)} {number : Nat}
    (remembers : chart.Remembers combine found) :
    chart.Remembers combine (found.setIfInBounds number
      (some (chart.valueWithin combine chart.size number))) := by
  intro other value kept
  rw [Array.getD_eq_getD_getElem?, Array.getElem?_setIfInBounds] at kept
  split at kept
  · rename_i same
    subst other
    split at kept
    · exact (Option.some.inj kept).symm
    · simp at kept
  · apply remembers
    rwa [Array.getD_eq_getD_getElem?]

def partWith (chart : Chart) (combine : Cell → List (Derivation × List β) → β)
    (depth : Nat) (derivation : Derivation) (found : Array (Option β)) :
    (Derivation × List β) × Array (Option β) :=
  let (values, found) :=
    mapThreading (chart.evaluateWith combine depth) derivation.children found
  ((derivation, values), found)

theorem evaluateWith_succ {depth number : Nat} {found : Array (Option β)}
    {cell : Cell} (missing : found.getD number none = none)
    (opened : chart.cells[number]? = some cell) :
    chart.evaluateWith combine (depth + 1) number found =
      let (parts, found) := mapThreading (chart.partWith combine depth)
        cell.derivations.toList found
      (combine cell parts,
        found.setIfInBounds number (some (combine cell parts))) := by
  rw [evaluateWith, missing]
  simp only [opened]
  rfl

theorem partWith_spec {depth : Nat} {derivation : Derivation}
    {found : Array (Option β)}
    (children : ∀ child ∈ derivation.children, ∀ found,
      chart.Remembers combine found →
      (chart.evaluateWith combine depth child found).1 =
          chart.valueWithin combine chart.size child ∧
        chart.Remembers combine
          (chart.evaluateWith combine depth child found).2)
    (remembers : chart.Remembers combine found) :
    (chart.partWith combine depth derivation found).1 =
        (derivation, derivation.children.map
          (chart.valueWithin combine chart.size)) ∧
      chart.Remembers combine
        (chart.partWith combine depth derivation found).2 := by
  obtain ⟨valuesEq, remembers⟩ := mapThreading_spec children remembers
  exact ⟨congrArg (Prod.mk derivation) valuesEq, remembers⟩

/-- Keeping values makes no difference. -/
theorem evaluateWith_spec (graded : chart.Graded level)
    (bounded : ∀ number < chart.size, level number < chart.size)
    {depth number : Nat} {found : Array (Option β)}
    (known : number < chart.size) (enough : level number < depth)
    (remembers : chart.Remembers combine found) :
    (chart.evaluateWith combine depth number found).1 =
        chart.valueWithin combine chart.size number ∧
      chart.Remembers combine
        (chart.evaluateWith combine depth number found).2 := by
  induction depth generalizing number found with
  | zero => exact absurd enough (Nat.not_lt_zero _)
  | succ depth ih =>
      cases kept : found.getD number none with
      | some value =>
          rw [evaluateWith, kept]
          exact ⟨remembers kept, remembers⟩
      | none =>
          obtain ⟨cell, opened⟩ := exists_cell_of_lt_size known
          have part : ∀ derivation ∈ cell.derivations.toList, ∀ found,
              chart.Remembers combine found →
              (chart.partWith combine depth derivation found).1 =
                  (derivation, derivation.children.map
                    (chart.valueWithin combine chart.size)) ∧
                chart.Remembers combine
                  (chart.partWith combine depth derivation found).2 := by
            intro derivation listed found remembers
            refine partWith_spec (fun child member found remembers => ?_)
              remembers
            have below : chart.Below child number :=
              ⟨cell, opened, derivation, listed, member⟩
            have lower := graded.lower below
            exact ih (graded.child_lt_size below) (by omega) remembers
          obtain ⟨partsEq, remembers⟩ := mapThreading_spec part remembers
          have bound := bounded number known
          have valueEq : combine cell (cell.derivations.toList.map
              fun derivation => (derivation, derivation.children.map
                (chart.valueWithin combine chart.size))) =
              chart.valueWithin combine chart.size number := by
            rw [← valueWithin_eq graded known (Nat.lt_succ_of_lt bound) bound]
            exact (valueWithin_succ opened).symm
          rw [evaluateWith_succ kept opened]
          dsimp only
          rw [partsEq, valueEq]
          exact ⟨rfl, remembers.setIfInBounds⟩

theorem remembers_none (chart : Chart)
    (combine : Cell → List (Derivation × List β) → β) :
    chart.Remembers combine (Array.replicate chart.size none) := by
  intro number value kept
  rw [Array.getD_eq_getD_getElem?, Array.getElem?_replicate] at kept
  split at kept <;> simp at kept

theorem evaluate_eq_valueWithin (graded : chart.Graded level) :
    ∀ number < chart.size, chart.evaluate combine number =
      chart.valueWithin combine chart.size number := by
  obtain ⟨bounded, graded, bound⟩ := graded.exists_lt_size
  intro number known
  exact (evaluateWith_spec graded bound known (bound number known)
    (chart.remembers_none combine)).1

/-- The value of a cell is combined from the values of the cells below it. -/
theorem evaluate_eq (graded : chart.Graded level) {number : Nat} {cell : Cell}
    (opened : chart.cells[number]? = some cell) :
    chart.evaluate combine number =
      combine cell (cell.derivations.toList.map fun derivation =>
        (derivation, derivation.children.map (chart.evaluate combine))) := by
  have value_eq : ∀ number < chart.size, chart.evaluate combine number =
      chart.valueWithin combine chart.size number :=
    evaluate_eq_valueWithin graded
  obtain ⟨bounded, graded, bound⟩ := graded.exists_lt_size
  have known := lt_size_of_getElem? opened
  calc chart.evaluate combine number
      = chart.valueWithin combine (chart.size + 1) number := by
        rw [value_eq number known]
        exact valueWithin_eq graded known (bound number known)
          (Nat.lt_succ_of_lt (bound number known))
    _ = _ := by
        rw [valueWithin_succ opened, parts_congr opened fun child below =>
          (value_eq child (graded.child_lt_size below)).symm]

end Chart

end Constituency
