import Constituency.Parse
import Constituency.Proofs.Chart.Guarded
import Constituency.Proofs.Forest.Evaluate

/-!
# Evaluating a forest under guard

Counting and listing trees is repeated with a guard at every access: it fails as soon
as a cell is followed that is not in the arena or has no place among the kept values,
or if the search is deeper than there are cells.

As the cells below a cell lie in the arena, and none lies below itself, no guard ever
fails, and the guarded evaluation gives the same values.
-/

namespace Constituency

/-- Applies a function that carries a state and may fail to the elements of a list,
from left to right. -/
def mapThreading? {α β σ : Type} (act : α → σ → Option (β × σ)) :
    List α → σ → Option (List β × σ)
  | [], state => some ([], state)
  | element :: rest, state => do
      let (value, state) ← act element state
      let (values, state) ← mapThreading? act rest state
      some (value :: values, state)

theorem mapThreading?_eq_some {α β σ : Type} {guarded : α → σ → Option (β × σ)}
    {act : α → σ → β × σ} {P : σ → Prop} {elements : List α} {state : σ}
    (each : ∀ element ∈ elements, ∀ state, P state →
      guarded element state = some (act element state) ∧
        P (act element state).2)
    (sound : P state) :
    mapThreading? guarded elements state =
        some (mapThreading act elements state) ∧
      P (mapThreading act elements state).2 := by
  induction elements generalizing state with
  | nil => exact ⟨rfl, sound⟩
  | cons element rest ih =>
      obtain ⟨succeeds, soundNext⟩ := each element (by simp) state sound
      obtain ⟨restSucceeds, soundLast⟩ := ih
        (fun other member => each other (by simp [member])) soundNext
      rw [mapThreading?, mapThreading, succeeds, Option.bind_eq_bind,
        Option.bind_some]
      dsimp only
      rw [restSucceeds]
      exact ⟨rfl, soundLast⟩

namespace Chart

namespace Guarded

variable {β : Type}

def evaluateWith (chart : Chart)
    (combine : Cell → List (Derivation × List β) → β) :
    (depth : Nat) → (cell : Nat) → (found : Array (Option β)) →
      Option (β × Array (Option β))
  | 0, _, _ => none
  | depth + 1, cell, found => do
      match ← found[cell]? with
      | some value => some (value, found)
      | none =>
          let contents ← chart.cells[cell]?
          let (parts, found) ← mapThreading?
            (fun derivation found => do
              let (values, found) ←
                mapThreading? (evaluateWith chart combine depth)
                  derivation.children found
              some ((derivation, values), found))
            contents.derivations.toList found
          let value := combine contents parts
          if cell < found.size then
            some (value, found.setIfInBounds cell (some value))
          else
            none

def evaluate (chart : Chart) (combine : Cell → List (Derivation × List β) → β)
    (cell : Nat) : Option β := do
  let (value, _) ← evaluateWith chart combine chart.size cell
    (Array.replicate chart.size none)
  some value

def root? (chart : Chart) : Option (Option Nat) :=
  if chart.words.isEmpty then
    some none
  else
    match chart.grammar.symbol? chart.grammar.start with
    | none => some none
    | some symbol => lookUp chart ⟨0, chart.words.size⟩ symbol

def count (chart : Chart) : Option Nat := do
  match ← root? chart with
  | none => some 0
  | some root => evaluate chart Forest.countParts root

def trees (chart : Chart) (limit : Nat) :
    Option (Except ParseError (List ParseTree)) := do
  match ← root? chart with
  | none => some (.ok [])
  | some root =>
      let count ← count chart
      if limit < count then
        some (.error (.tooManyTrees limit))
      else
        let trees ← evaluate chart (Forest.treesOfParts chart.grammar) root
        some (.ok trees)

def partWith (chart : Chart) (combine : Cell → List (Derivation × List β) → β)
    (depth : Nat) (derivation : Derivation) (found : Array (Option β)) :
    Option ((Derivation × List β) × Array (Option β)) := do
  let (values, found) ←
    mapThreading? (evaluateWith chart combine depth) derivation.children found
  some ((derivation, values), found)

section Evaluation

variable [Inhabited β] {chart : Chart} {level : Nat → Nat} {number : Nat}
variable (combine : Cell → List (Derivation × List β) → β)

omit [Inhabited β] in
theorem evaluateWith_succ {depth number : Nat} {found : Array (Option β)}
    {cell : Cell} (known : number < found.size)
    (missing : found.getD number none = none)
    (opened : chart.cells[number]? = some cell) :
    evaluateWith chart combine (depth + 1) number found = (do
      let (parts, found) ← mapThreading? (partWith chart combine depth)
        cell.derivations.toList found
      if number < found.size then
        some (combine cell parts,
          found.setIfInBounds number (some (combine cell parts)))
      else
        none) := by
  have kept : found[number]? = some none := by
    rw [Array.getElem?_eq_getElem known]
    rw [Array.getD_eq_getD_getElem?, Array.getElem?_eq_getElem known] at missing
    exact congrArg some missing
  rw [evaluateWith, kept, Option.bind_eq_bind, Option.bind_some]
  dsimp only
  rw [opened]
  rfl

theorem partWith_eq {depth : Nat} {derivation : Derivation}
    {found : Array (Option β)}
    (children : ∀ child ∈ derivation.children, ∀ found : Array (Option β),
      found.size = chart.size →
      evaluateWith chart combine depth child found =
          some (chart.evaluateWith combine depth child found) ∧
        (chart.evaluateWith combine depth child found).2.size = chart.size)
    (sized : found.size = chart.size) :
    partWith chart combine depth derivation found =
        some (chart.partWith combine depth derivation found) ∧
      (chart.partWith combine depth derivation found).2.size = chart.size := by
  obtain ⟨values, sized⟩ := mapThreading?_eq_some children sized
  rw [partWith, values]
  exact ⟨rfl, sized⟩

/-- A search as deep as the level of a cell follows only cells of the arena, and keeps
a place for the value of each. -/
theorem evaluateWith_eq (graded : chart.Graded level) {depth number : Nat}
    {found : Array (Option β)} (known : number < chart.size)
    (enough : level number < depth) (sized : found.size = chart.size) :
    evaluateWith chart combine depth number found =
        some (chart.evaluateWith combine depth number found) ∧
      (chart.evaluateWith combine depth number found).2.size = chart.size := by
  induction depth generalizing number found with
  | zero => exact absurd enough (Nat.not_lt_zero _)
  | succ depth ih =>
      have place : number < found.size := sized ▸ known
      cases kept : found.getD number none with
      | some value =>
          have held : found[number]? = some (some value) := by
            rw [← kept, Array.getD_eq_getD_getElem?,
              Array.getElem?_eq_getElem place, Option.getD_some]
          rw [evaluateWith, Chart.evaluateWith, held, kept]
          exact ⟨rfl, sized⟩
      | none =>
          obtain ⟨cell, opened⟩ := exists_cell_of_lt_size known
          have part : ∀ derivation ∈ cell.derivations.toList,
              ∀ found : Array (Option β), found.size = chart.size →
              partWith chart combine depth derivation found =
                  some (chart.partWith combine depth derivation found) ∧
                (chart.partWith combine depth derivation found).2.size =
                  chart.size := by
            intro derivation listed found sized
            refine partWith_eq combine (fun child member found sized => ?_) sized
            have below : chart.Below child number :=
              ⟨cell, opened, derivation, listed, member⟩
            have lower := graded.lower below
            exact ih (graded.child_lt_size below) (by omega) sized
          obtain ⟨parts, sized⟩ := mapThreading?_eq_some part sized
          rw [evaluateWith_succ combine place kept opened,
            Chart.evaluateWith_succ kept opened, parts, Option.bind_eq_bind,
            Option.bind_some]
          dsimp only
          rw [if_pos (sized ▸ known), Array.size_setIfInBounds]
          exact ⟨rfl, sized⟩

/-- No guard fails while the value of a cell is found. -/
theorem evaluate_eq (graded : chart.Graded level) (known : number < chart.size) :
    evaluate chart combine number = some (chart.evaluate combine number) := by
  obtain ⟨bounded, graded, bound⟩ := graded.exists_lt_size
  obtain ⟨found, _⟩ := evaluateWith_eq combine graded known (bound number known)
    Array.size_replicate
  rw [evaluate, found]
  rfl

end Evaluation

end Guarded

end Chart

end Constituency
