import Constituency.Chart.Fill
import Constituency.ParseTree.Basic

/-!
# Packed forests

A filled chart is a forest: the trees of a cell are those of its derivations,
and the trees of a derivation take one tree of each of its children.  Counting
trees and listing them are both evaluations of the chart, in which the value of
a cell is combined from the values of the cells below it, and the value of a
shared cell is found only once.

A selection from a list of choices takes one element of each choice.  Selections
are listed with the leftmost element varying slowest.  There is no selection
from an empty list of choices.
-/

namespace Constituency

/-- Every sequence, followed by each element of a choice in turn. -/
def extendAll {α : Type} (sequences : List (List α)) (choice : List α) :
    List (List α) :=
  sequences.flatMap fun sequence =>
    choice.map fun element => sequence ++ [element]

/-- Every way to take one element of each of one or more choices. -/
def selections {α : Type} (choices : List (List α)) : List (List α) :=
  if choices.isEmpty then [] else choices.foldl extendAll [[]]

/-- Applies a function that carries a state to the elements of a list, from left
to right. -/
def mapThreading {α β σ : Type} (act : α → σ → β × σ) :
    List α → σ → List β × σ
  | [], state => ([], state)
  | element :: rest, state =>
      let (value, state) := act element state
      let (values, state) := mapThreading act rest state
      (value :: values, state)

namespace Chart

variable {β : Type} [Inhabited β]

/-- The value of a cell, and the values found so far.  The value is combined
from the derivations of the cell, each with the values of its children.  A path
from cell to cell that visits none twice is never longer than the number of
cells, which is what `depth` starts with. -/
def evaluateWith (chart : Chart)
    (combine : Cell → List (Derivation × List β) → β) :
    (depth : Nat) → (cell : Nat) → (found : Array (Option β)) →
      β × Array (Option β)
  | 0, _, found => (default, found)
  | depth + 1, cell, found =>
      match found.getD cell none with
      | some value => (value, found)
      | none =>
          match chart.cells[cell]? with
          | none => (default, found)
          | some contents =>
              let (parts, found) :=
                mapThreading
                  (fun derivation found =>
                    let (values, found) :=
                      mapThreading (evaluateWith chart combine depth)
                        derivation.children found
                    ((derivation, values), found))
                  contents.derivations.toList found
              let value := combine contents parts
              (value, found.setIfInBounds cell (some value))

/-- The value of a cell, combined from the values of the cells below it. -/
def evaluate (chart : Chart)
    (combine : Cell → List (Derivation × List β) → β) (cell : Nat) : β :=
  (evaluateWith chart combine chart.size cell
    (Array.replicate chart.size none)).1

end Chart

/-- The greatest number of trees that is told apart from greater ones. -/
def countLimit : Nat :=
  UInt64.size - 1

/-- A number of trees as far as it is told apart from greater ones. -/
def saturate (count : Nat) : Nat :=
  min count countLimit

/-- A filled chart seen as the trees of the whole sentence. -/
structure Forest where
  chart : Chart

namespace Forest

/-- The number of trees of a derivation, given those of its children. -/
def countWays (counts : List Nat) : Nat :=
  counts.foldl (fun ways count => saturate (ways * count)) 1

/-- The number of trees of a cell, given those of its children. -/
def countParts (_ : Cell) (parts : List (Derivation × List Nat)) : Nat :=
  parts.foldl (fun total part => saturate (total + countWays part.2)) 0

/-- The trees of a cell, given those of its children, in the order of its
derivations.  A lexical derivation has the word of its production as its only
child. -/
def treesOfParts (grammar : Grammar) (cell : Cell)
    (parts : List (Derivation × List (List ParseTree))) : List ParseTree :=
  let label := grammar.symbolName cell.symbol
  parts.flatMap fun (derivation, choices) =>
    if derivation.children.isEmpty then
      let word := grammar.productions[derivation.production]?.bind (·.word?)
      [.branch label cell.span [.leaf (word.getD "") cell.span]]
    else
      (selections choices).map (.branch label cell.span)

def isEmpty (forest : Forest) : Bool :=
  forest.chart.root?.isNone

def count (forest : Forest) : Nat :=
  match forest.chart.root? with
  | none => 0
  | some root => forest.chart.evaluate countParts root

/-- All trees of the sentence, in the order of their derivations. -/
def allTrees (forest : Forest) : List ParseTree :=
  match forest.chart.root? with
  | none => []
  | some root =>
      forest.chart.evaluate (treesOfParts forest.chart.grammar) root

end Forest

end Constituency
