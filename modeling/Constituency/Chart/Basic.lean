import Constituency.Grammar.Basic
import Constituency.ParseTree.Basic

/-!
# Packed parse charts

A chart holds, for a sentence, every way in which every nonterminal derives
every span of the words.  All ways for one nonterminal and one span share a
cell.  The cells lie in an arena in the order in which they were opened, and
derivations refer to the cells of their children by number, so that a subtree is
stored once however often it is used.

A cell is found by its span and its nonterminal through an index with one slot
for each such pair.
-/

namespace Constituency

/-- One way to build a cell: a production, by its number, and the cell of each
nonterminal on its right.  A lexical derivation has no children. -/
structure Derivation where
  production : Nat
  children : List Nat
  deriving DecidableEq, Repr

/-- Every known way for a nonterminal, given by its number, to derive the words
of a span. -/
structure Cell where
  symbol : Nat
  span : Span
  derivations : Array Derivation
  deriving DecidableEq, Repr

/-- The report that a cell was opened for a nonterminal on a span. -/
structure CellOpened where
  span : Span
  symbol : String
  deriving DecidableEq, Repr

/-- The chart of a sentence for a grammar. -/
structure Chart where
  grammar : Grammar
  words : Array String
  /-- The arena of the cells. -/
  cells : Array Cell
  /-- The number of the cell for each pair of a span and a nonterminal. -/
  index : Array (Option Nat)
  /-- The reports of the opened cells, in the order in which they were made. -/
  opened : Array CellOpened

namespace Cell

def push (cell : Cell) (derivation : Derivation) : Cell :=
  { cell with derivations := cell.derivations.push derivation }

end Cell

namespace Chart

/-- The chart of a sentence before any cell has been opened. -/
def empty (grammar : Grammar) (words : Array String) : Chart where
  grammar
  words
  cells := #[]
  index :=
    Array.replicate
      ((words.size + 1) * (words.size + 1) * grammar.symbolCount) none
  opened := #[]

/-- The place in the index of a nonterminal on a span. -/
def slot (chart : Chart) (span : Span) (symbol : Nat) : Nat :=
  (span.start * (chart.words.size + 1) + span.stop) *
    chart.grammar.symbolCount + symbol

/-- The number of the cell of a nonterminal on a span. -/
def cellAt? (chart : Chart) (span : Span) (symbol : Nat) : Option Nat :=
  chart.index.getD (chart.slot span symbol) none

def size (chart : Chart) : Nat :=
  chart.cells.size

def isEmpty (chart : Chart) : Bool :=
  chart.cells.isEmpty

def derivationCount (chart : Chart) : Nat :=
  chart.cells.foldl (fun count cell => count + cell.derivations.size) 0

/-- The cell of the start symbol on the whole sentence.  The empty sentence has
none. -/
def root? (chart : Chart) : Option Nat :=
  if chart.words.isEmpty then
    none
  else
    (chart.grammar.symbol? chart.grammar.start).bind
      (chart.cellAt? ⟨0, chart.words.size⟩)

/-- Whether the cell of a nonterminal on a span holds the derivation. -/
def holds (chart : Chart) (span : Span) (symbol : Nat)
    (derivation : Derivation) : Bool :=
  match chart.cellAt? span symbol with
  | none => false
  | some cell =>
      match chart.cells[cell]? with
      | none => false
      | some cell => cell.derivations.contains derivation

/-- Adds a derivation to the cell of a nonterminal on a span.  The cell is
opened if there is none yet.

Numbers of cells are not bounded here.  Stored in 32 bits they are the same
numbers as long as the arena stays within its bound, and so are the chart and the
trees of a sentence: see `WithinBounds.fill_eq_of_narrow`,
`Grammar.narrowChart_eq` and `Grammar.narrowParse_eq`. -/
def add (chart : Chart) (span : Span) (symbol : Nat)
    (derivation : Derivation) : Chart :=
  match chart.cellAt? span symbol with
  | some cell =>
      { chart with
        cells := chart.cells.modify cell (·.push derivation) }
  | none =>
      { chart with
        cells := chart.cells.push ⟨symbol, span, #[derivation]⟩
        index :=
          chart.index.setIfInBounds (chart.slot span symbol)
            (some chart.cells.size)
        opened :=
          chart.opened.push ⟨span, chart.grammar.symbolName symbol⟩ }

/-!
## Printing

A chart is printed cell by cell, in the order of the arena.  A cell has a line
for its span and nonterminal, and below it an indented line for each derivation,
with the production and the spans of the children.
-/

def derivationLine (chart : Chart) (derivation : Derivation) : String :=
  let production :=
    match chart.grammar.productions[derivation.production]? with
    | some production => toString production
    | none => ""
  let children := derivation.children.map fun child =>
    match chart.cells[child]? with
    | some cell => " [" ++ toString cell.span ++ "]"
    | none => ""
  "  " ++ production ++ String.join children ++ "\n"

def cellLines (chart : Chart) (cell : Cell) : String :=
  toString cell.span ++ ": " ++ chart.grammar.symbolName cell.symbol ++ "\n" ++
    String.join (cell.derivations.toList.map chart.derivationLine)

instance : ToString Chart :=
  ⟨fun chart => String.join (chart.cells.toList.map chart.cellLines)⟩

end Chart

end Constituency
