import Constituency.Forest

/-!
# Parsing a sentence

A sentence is a list of words.  It is refused if the grammar does not know one
of its words, or if it has more trees than a limit allows; no tree is built
before the trees have been counted.  That a sentence has no tree is not an
error.
-/

namespace Constituency

/-- Why a sentence could not be parsed. -/
inductive ParseError where
  /-- The word at this position is not in the lexicon of the grammar. -/
  | unknownWord (word : String) (position : Nat)
  /-- The sentence has more trees than the limit. -/
  | tooManyTrees (limit : Nat)
  deriving DecidableEq, Repr

namespace ParseError

def message : ParseError → String
  | .unknownWord word position =>
      "unknown word \"" ++ word ++ "\" at position " ++ toString position
  | .tooManyTrees limit =>
      "sentence has more than " ++ toString limit ++ " parse trees"

end ParseError

/-- What is reported while a sentence is parsed. -/
inductive ParseEvent where
  /-- A cell was opened in the chart. -/
  | cellOpened (cell : CellOpened)
  /-- The chart of so many words was filled, and has so many cells and
  derivations. -/
  | chartFilled (words cells derivations : Nat)
  /-- The trees were counted, to be held against the limit. -/
  | treesCounted (count limit : Nat)
  /-- The sentence was parsed. -/
  | parsed (words trees : Nat)
  deriving DecidableEq, Repr

/-- The outcome of parsing a sentence: the events in the order in which they
were reported, and the trees or the reason why there are none. -/
structure Parse where
  events : List ParseEvent
  result : Except ParseError (List ParseTree)

def defaultTreeLimit : Nat :=
  10000

namespace Forest

/-- The events and the result of listing the trees of a forest within a
limit. -/
def expand (forest : Forest) (limit : Nat) : Parse :=
  if forest.isEmpty then
    ⟨[], .ok []⟩
  else
    let count := forest.count
    ⟨[.treesCounted count limit],
      if limit < count then
        .error (.tooManyTrees limit)
      else
        .ok forest.allTrees⟩

/-- All trees of a forest, if they are within the limit. -/
def trees (forest : Forest) (limit : Nat) :
    Except ParseError (List ParseTree) :=
  (forest.expand limit).result

end Forest

namespace Chart

def events (chart : Chart) : List ParseEvent :=
  chart.opened.toList.map .cellOpened ++
    [.chartFilled chart.words.size chart.size chart.derivationCount]

end Chart

namespace Grammar

/-- The first word that the grammar does not know. -/
def unknownWord? (grammar : Grammar) (words : List String) :
    Option ParseError :=
  (words.zipIdx.find? fun (word, _) => !grammar.knowsWord word).map
    fun (word, position) => .unknownWord word position

/-- The filled chart of a sentence. -/
def chart (grammar : Grammar) (words : List String) :
    Except ParseError Chart :=
  match grammar.unknownWord? words with
  | some error => .error error
  | none => .ok (Chart.fill grammar words.toArray)

def forest (grammar : Grammar) (words : List String) :
    Except ParseError Forest :=
  (grammar.chart words).map Forest.mk

/-- Parses a sentence and reports what happens on the way. -/
def parseLogged (grammar : Grammar) (words : List String) (limit : Nat) :
    Parse :=
  match grammar.forest words with
  | .error error => ⟨[], .error error⟩
  | .ok forest =>
      let expansion := forest.expand limit
      let outcome :=
        match expansion.result with
        | .error _ => []
        | .ok trees => [.parsed words.length trees.length]
      ⟨forest.chart.events ++ expansion.events ++ outcome, expansion.result⟩

/-- All trees of a sentence, in the order of their derivations, if they are
within the limit. -/
def parse (grammar : Grammar) (words : List String) (limit : Nat) :
    Except ParseError (List ParseTree) :=
  (grammar.parseLogged words limit).result

end Grammar

end Constituency
