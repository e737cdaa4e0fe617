import Constituency.Production

/-!
# Grammars

A grammar is a list of productions with a start symbol.  Beside the productions
it holds what a parser asks of them: the nonterminals, numbered in the order in
which they are first defined, the productions of each nonterminal and of each
word, and every production with its nonterminals replaced by their numbers.
-/

namespace Constituency

/-- A production with its nonterminals replaced by their numbers.  The
right-hand side of a lexical production has no nonterminals, and is empty. -/
structure NumberedProduction where
  lhs : Nat
  rhs : List Nat
  deriving DecidableEq, Repr

/-- The nonterminal on the right of a unit production. -/
def NumberedProduction.unitTarget? (numbered : NumberedProduction) : Option Nat :=
  match numbered.rhs with
  | [target] => some target
  | _ => none

/-- A context-free grammar with the indexes of its productions.  Productions
are numbered in the order in which they were declared. -/
structure Grammar where
  start : String
  productions : Array Production
  /-- The names of the nonterminals, in the order of their first definition. -/
  nonterminals : Array String
  /-- The number of each nonterminal. -/
  ids : List (String × Nat)
  /-- The numbers of the productions of each nonterminal. -/
  byLhs : Array (List Nat)
  /-- The numbers of the lexical productions of each word. -/
  lexicon : List (String × List Nat)
  /-- The productions in terms of the numbers of their nonterminals. -/
  numbered : Array NumberedProduction
  deriving DecidableEq, Repr

namespace Grammar

def symbolCount (grammar : Grammar) : Nat :=
  grammar.nonterminals.size

/-- The number of a nonterminal. -/
def symbol? (grammar : Grammar) (name : String) : Option Nat :=
  grammar.ids.lookup name

def symbolName (grammar : Grammar) (symbol : Nat) : String :=
  grammar.nonterminals.getD symbol ""

/-- The productions with the given left-hand side, in the order of their
declaration. -/
def productionsFor (grammar : Grammar) (lhs : String) : List Production :=
  match grammar.symbol? lhs with
  | none => []
  | some symbol =>
      (grammar.byLhs.getD symbol []).filterMap (grammar.productions[·]?)

def lexicalFor (grammar : Grammar) (word : String) : List Nat :=
  (grammar.lexicon.lookup word).getD []

/-- Whether some lexical production produces the word. -/
def knowsWord (grammar : Grammar) (word : String) : Bool :=
  (grammar.lexicon.lookup word).isSome

/-- Whether the symbol is a word that some lexical production produces. -/
def isTerminal (grammar : Grammar) : Symbol → Bool
  | .terminal word => grammar.knowsWord word
  | .nonterminal _ => false

/-- The written form: a comment that names the start symbol, and every
production on a line of its own. -/
def written (grammar : Grammar) : List Char :=
  "// start: ".toList ++ grammar.start.toList ++ '\n' ::
    grammar.productions.toList.flatMap fun production =>
      production.written ++ ['\n']

instance : ToString Grammar :=
  ⟨fun grammar => String.ofList grammar.written⟩

end Grammar

end Constituency
