import Constituency.Grammar.Check
import Constituency.Grammar.Index

/-!
# Building a grammar

A grammar is built from a start symbol and a list of productions.  Productions
that occur again are dropped, and every defect is found here, so that a grammar
once built can be used without further checks.  What was dropped, and what can
never be used, is reported.
-/

namespace Constituency

/-- What is reported while a grammar is built. -/
inductive BuildEvent where
  /-- A production equal to an earlier one was dropped. -/
  | droppedDuplicate (production : Production)
  /-- The nonterminal cannot be reached from the start symbol. -/
  | unreachable (symbol : String)
  /-- The grammar was built, with so many productions, nonterminals and known
  words. -/
  | built (start : String) (productions nonterminals words : Nat)
  deriving DecidableEq, Repr

/-- The outcome of building a grammar: the events in the order in which they
were reported, and the grammar or its first defect. -/
structure Build where
  events : List BuildEvent
  result : Except GrammarError Grammar

/-- The defect in the shape of a production, which must be lexical or
syntactic. -/
def Production.shapeError? (production : Production) : Option GrammarError :=
  if production.isEmpty then
    some (.emptyRhs production.lhs)
  else if production.isLexical || production.isSyntactic then
    none
  else if production.rhs.all Symbol.isTerminal then
    some (.severalWords production)
  else
    some (.mixedRhs production)

namespace Grammar

/-- Goes through productions that follow those already seen.  The result is what
is dropped on the way, and the productions that are kept, or the first defect in
the shape of one. -/
def keepFirst (seen : List Production) :
    List Production → List Production × Except GrammarError (List Production)
  | [] => ([], .ok [])
  | production :: rest =>
      match production.shapeError? with
      | some error => ([], .error error)
      | none =>
          if production ∈ seen then
            let (dropped, kept) := keepFirst seen rest
            (production :: dropped, kept)
          else
            let (dropped, kept) := keepFirst (production :: seen) rest
            (dropped, kept.map (production :: ·))

def ofDistinct (start : String) (productions : List Production) :
    Except GrammarError Grammar :=
  match index start productions with
  | .error error => .error error
  | .ok grammar =>
      match grammar.defect? with
      | some error => .error error
      | none => .ok grammar

def report (grammar : Grammar) : List BuildEvent :=
  grammar.unreachable.map .unreachable ++
    [.built grammar.start grammar.productions.size grammar.symbolCount
      grammar.lexicon.length]

/-- Builds a grammar and reports what happens on the way. -/
def build (start : String) (productions : List Production) : Build :=
  if productions.isEmpty then
    ⟨[], .error .empty⟩
  else
    let (dropped, kept) := keepFirst [] productions
    let warnings := dropped.map .droppedDuplicate
    match kept.bind (ofDistinct start) with
    | .error error => ⟨warnings, .error error⟩
    | .ok grammar => ⟨warnings ++ grammar.report, .ok grammar⟩

def ofProductions (start : String) (productions : List Production) :
    Except GrammarError Grammar :=
  (build start productions).result

end Grammar

end Constituency
