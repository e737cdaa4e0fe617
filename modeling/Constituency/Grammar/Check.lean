import Constituency.Cycle
import Constituency.Grammar.Basic
import Constituency.Grammar.Error
import Constituency.Horn
import Constituency.Marking

/-!
# Checks on a grammar

Three questions about the nonterminals of a grammar.  A nonterminal that derives
itself by unit productions alone would give every phrase of its kind infinitely
many trees.  A nonterminal that derives no words can never be used.  Both are
defects.  A nonterminal that cannot be reached from the start symbol does no
harm, and is only reported.
-/

namespace Constituency

namespace Grammar

/-- The right-hand sides of the unit productions of a nonterminal, in the order
of their declaration. -/
def unitTargets (grammar : Grammar) (symbol : Nat) : List Nat :=
  (grammar.byLhs.getD symbol []).filterMap fun index =>
    grammar.numbered[index]?.bind NumberedProduction.unitTarget?

/-- A nonterminal that derives itself by unit productions. -/
def unitCycle? (grammar : Grammar) : Option Nat :=
  Cycle.first? grammar.unitTargets grammar.symbolCount

/-- A left-hand side derives words if all nonterminals on the right do, and so
does that of every lexical production. -/
def productivityClauses (grammar : Grammar) : List HornClause :=
  grammar.numbered.toList.map fun numbered => ⟨numbered.rhs, numbered.lhs⟩

/-- The nonterminals that derive some sequence of words. -/
def productive (grammar : Grammar) : List Nat :=
  HornClause.closure grammar.productivityClauses []

/-- The first nonterminal that derives no words. -/
def unproductive? (grammar : Grammar) : Option Nat :=
  let productive := grammar.productive
  (List.range grammar.symbolCount).find? (· ∉ productive)

/-- The nonterminals on the right of the productions of a nonterminal, in the
order of their declaration. -/
def usedBy (grammar : Grammar) (symbol : Nat) : List Nat :=
  (grammar.byLhs.getD symbol []).flatMap fun index =>
    (grammar.numbered[index]?.map NumberedProduction.rhs).getD []

/-- The marks of the nonterminals that can be reached from the start symbol. -/
def reachable (grammar : Grammar) : Array Bool :=
  Marking.search grammar.usedBy (Array.replicate grammar.symbolCount false)
    (grammar.symbol? grammar.start).toList

/-- The names of the nonterminals that cannot be reached from the start symbol,
in the order of their first definition. -/
def unreachable (grammar : Grammar) : List String :=
  let marks := grammar.reachable
  ((List.range grammar.symbolCount).filter (!Marking.isMarked marks ·)).map
    grammar.symbolName

/-- The defect of a grammar whose symbols are all defined. -/
def defect? (grammar : Grammar) : Option GrammarError :=
  match grammar.unitCycle? with
  | some symbol => some (.unitCycle (grammar.symbolName symbol))
  | none =>
      grammar.unproductive?.map fun symbol =>
        .unproductive (grammar.symbolName symbol)

end Grammar

end Constituency
