import Constituency.Grammar.Basic
import Constituency.Grammar.Error

/-!
# Indexing the productions of a grammar

The productions of a grammar are indexed once, when it is built, in two passes.
The first one numbers the nonterminals in the order in which they first stand on
the left.  The second one lists the productions by left-hand side and by word,
and replaces their nonterminals by the numbers.  Indexing fails between the
passes if the start symbol has no number, and in the second one at the first
symbol on the right that has none.
-/

namespace Constituency

/-- Names with their numbers, which are the places where the names stand. -/
structure Numbering where
  names : Array String
  ids : List (String × Nat)

/-- A new name takes the next number. -/
def Numbering.add (numbering : Numbering) (name : String) : Numbering :=
  match numbering.ids.lookup name with
  | some _ => numbering
  | none =>
      { names := numbering.names.push name
        ids := (name, numbering.names.size) :: numbering.ids }

/-- What the second pass has listed. -/
structure Entries where
  byLhs : Array (List Nat)
  lexicon : List (String × List Nat)
  numbered : Array NumberedProduction

namespace Grammar

/-- The left-hand sides of the productions, numbered in the order of their first
occurrence. -/
def numberLeftHandSides (productions : List Production) : Numbering :=
  productions.foldl
    (fun numbering production => numbering.add production.lhs)
    ⟨#[], []⟩

/-- The lexicon after one more production for a word. -/
def addWord (word : String) (index : Nat) :
    List (String × List Nat) → List (String × List Nat)
  | [] => [(word, [index])]
  | (known, indices) :: rest =>
      if known = word then
        (known, indices ++ [index]) :: rest
      else
        (known, indices) :: addWord word index rest

/-- The numbers of the symbols on the right of a production, which must all be
nonterminals with a number. -/
def numberSymbols (ids : List (String × Nat)) (production : Production) :
    List Symbol → Except GrammarError (List Nat)
  | [] => .ok []
  | symbol :: rest =>
      match ids.lookup symbol.text with
      | none => .error (.undefinedNonterminal symbol.text production)
      | some number => (numberSymbols ids production rest).map (number :: ·)

/-- A production in terms of the numbers of its nonterminals. -/
def numberProduction (ids : List (String × Nat)) (production : Production) :
    Except GrammarError NumberedProduction :=
  -- The first pass has given every left-hand side a number.
  let lhs := (ids.lookup production.lhs).getD 0
  match production.word? with
  | some _ => .ok ⟨lhs, []⟩
  | none =>
      (numberSymbols ids production production.rhs).map
        (NumberedProduction.mk lhs)

/-- Lists the production with the given index under the number of its left-hand
side, and a lexical one under its word too. -/
def addProduction (ids : List (String × Nat)) (entries : Entries) :
    Production × Nat → Except GrammarError Entries
  | (production, index) =>
      (numberProduction ids production).map fun numbered =>
        { byLhs := entries.byLhs.modify numbered.lhs (· ++ [index])
          lexicon :=
            match production.word? with
            | some word => addWord word index entries.lexicon
            | none => entries.lexicon
          numbered := entries.numbered.push numbered }

def listProductions (numbering : Numbering) (productions : List Production) :
    Except GrammarError Entries :=
  productions.zipIdx.foldlM (addProduction numbering.ids)
    ⟨Array.replicate numbering.names.size [], [], #[]⟩

/-- The grammar of the given productions with all its indexes. -/
def index (start : String) (productions : List Production) :
    Except GrammarError Grammar :=
  let numbering := numberLeftHandSides productions
  match numbering.ids.lookup start with
  | none => .error (.undefinedStart start)
  | some _ =>
      (listProductions numbering productions).map fun entries =>
        { start
          productions := productions.toArray
          nonterminals := numbering.names
          ids := numbering.ids
          byLhs := entries.byLhs
          lexicon := entries.lexicon
          numbered := entries.numbered }

end Grammar

end Constituency
