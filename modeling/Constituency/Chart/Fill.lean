import Constituency.Chart.Basic

/-!
# Filling a chart

A chart is filled from short spans to long ones.  A span of one word receives
the lexical productions of that word, and a longer span receives every
production with two or more nonterminals on the right whose children tile the
span.  After either, unit productions are applied within the span until they add
nothing more, and the derivations of each cell are put back into the order of
their productions.
-/

namespace Constituency

namespace Chart

def scan (chart : Chart) (position : Nat) : Chart :=
  match chart.words[position]? with
  | none => chart
  | some word =>
      (chart.grammar.lexicalFor word).foldl
        (fun chart production =>
          match chart.grammar.numbered[production]? with
          | none => chart
          | some numbered =>
              chart.add ⟨position, position + 1⟩ numbered.lhs
                ⟨production, []⟩)
        chart

/-- The difference of two numbers.  There is none if the second one is greater. -/
def difference? (whole part : Nat) : Option Nat :=
  if part ≤ whole then some (whole - part) else none

/-- Lists every sequence of cells, one for each of the nonterminals, whose spans tile
the given span from left to right, after the cells that are already chosen.
Sequences with a shorter first part come first.  A split leaves at least one word for
each nonterminal that remains.

Each cell is chosen in turn, and given back when all sequences with it are listed.
There is no result if the remaining nonterminals outnumber the words, or if a cell
cannot be looked up. -/
def collect (find : Span → Nat → Option (Option Nat)) :
    List Nat → Span → Array Nat → Array (List Nat) →
      Option (Array Nat × Array (List Nat))
  | [], span, chosen, found =>
      if span.start = span.stop then
        some (chosen, found.push chosen.toList)
      else
        some (chosen, found)
  | symbol :: rest, span, chosen, found =>
      (difference? span.stop rest.length).bind fun last =>
        (List.range' (span.start + 1) (last - span.start)).foldlM
          (fun (chosen, found) middle =>
            (find ⟨span.start, middle⟩ symbol).bind fun
              | none => some (chosen, found)
              | some cell =>
                  (collect find rest ⟨middle, span.stop⟩ (chosen.push cell)
                    found).map fun (chosen, found) => (chosen.pop, found))
          (chosen, found)

/-- Every sequence of cells, one for each of the nonterminals, whose spans tile
the given span from left to right. -/
def splits (chart : Chart) (rhs : List Nat) (span : Span) : List (List Nat) :=
  match collect (fun span symbol => some (chart.cellAt? span symbol)) rhs span
      #[] #[] with
  | none => []
  | some (_, found) => found.toList

/-- Adds the derivations of one production on a span, if it has two or more
nonterminals on the right and the span has a word for each of them. -/
def combineProduction (chart : Chart) (span : Span) (production : Nat) : Chart :=
  match chart.grammar.numbered[production]? with
  | none => chart
  | some numbered =>
      if 2 ≤ numbered.rhs.length ∧ numbered.rhs.length ≤ span.length then
        (chart.splits numbered.rhs span).foldl
          (fun chart children =>
            chart.add span numbered.lhs ⟨production, children⟩)
          chart
      else
        chart

def combine (chart : Chart) (span : Span) : Chart :=
  (List.range chart.grammar.numbered.size).foldl
    (fun chart production => chart.combineProduction span production) chart

/-- Applies a production within a span, if it is a unit production whose child
has a cell there.  The result tells whether a derivation was added. -/
def applyUnit (chart : Chart) (span : Span) (production : Nat) :
    Chart × Bool :=
  match chart.grammar.numbered[production]? with
  | none => (chart, false)
  | some numbered =>
      match numbered.unitTarget?.bind (chart.cellAt? span) with
      | none => (chart, false)
      | some child =>
          if chart.holds span numbered.lhs ⟨production, [child]⟩ then
            (chart, false)
          else
            (chart.add span numbered.lhs ⟨production, [child]⟩, true)

/-- Applies every production once within a span, and tells whether any
derivation was added. -/
def unitPass (chart : Chart) (span : Span) : Chart × Bool :=
  (List.range chart.grammar.numbered.size).foldl
    (fun (chart, changed) production =>
      let (chart, added) := chart.applyUnit span production
      (chart, changed || added))
    (chart, false)

/-- Makes passes over a span until one of them adds nothing, or the given number
of passes have been made. -/
def unitPasses (span : Span) : Nat → Chart → Chart
  | 0, chart => chart
  | remaining + 1, chart =>
      let (chart, changed) := chart.unitPass span
      if changed then unitPasses span remaining chart else chart

/-- Places a derivation before those of the same and of later productions. -/
def insertByProduction (derivation : Derivation) :
    List Derivation → List Derivation
  | [] => [derivation]
  | next :: rest =>
      if derivation.production ≤ next.production then
        derivation :: next :: rest
      else
        next :: insertByProduction derivation rest

/-- Derivations in the order of their productions.  Those of one production stay
in the order in which they are given. -/
def sortByProduction (derivations : List Derivation) : List Derivation :=
  derivations.foldr insertByProduction []

def sortCell (chart : Chart) (span : Span) (symbol : Nat) : Chart :=
  match chart.cellAt? span symbol with
  | none => chart
  | some cell =>
      { chart with
        cells := chart.cells.modify cell fun cell =>
          { cell with
            derivations :=
              (sortByProduction cell.derivations.toList).toArray } }

/-- Puts the derivations of all cells on a span into the order of their
productions. -/
def sortCells (chart : Chart) (span : Span) : Chart :=
  (List.range chart.grammar.symbolCount).foldl
    (fun chart symbol => chart.sortCell span symbol) chart

/-- Applies unit productions within a span until they add nothing more.  Every
pass but the last applies some unit production for the first time, so one pass
more than there are productions is always enough. -/
def closeUnits (chart : Chart) (span : Span) : Chart :=
  (unitPasses span (chart.grammar.numbered.size + 1) chart).sortCells span

/-- A step in the filling of a chart. -/
inductive FillStep where
  | scan (position : Nat)
  | combine (span : Span)
  | closeUnits (span : Span)
  deriving DecidableEq, Repr

def step (chart : Chart) : FillStep → Chart
  | .scan position => chart.scan position
  | .combine span => chart.combine span
  | .closeUnits span => chart.closeUnits span

/-- The steps that fill the chart of a sentence with the given number of words:
first the spans of one word, then those of two, and so on, from left to
right. -/
def fillSteps (count : Nat) : List FillStep :=
  ((List.range count).flatMap fun position =>
    [.scan position, .closeUnits ⟨position, position + 1⟩]) ++
  (List.range' 2 (count - 1)).flatMap fun length =>
    (List.range (count + 1 - length)).flatMap fun start =>
      [.combine ⟨start, start + length⟩, .closeUnits ⟨start, start + length⟩]

/-- The filled chart of a sentence. -/
def fill (grammar : Grammar) (words : Array String) : Chart :=
  (fillSteps words.size).foldl step (empty grammar words)

end Chart

end Constituency
