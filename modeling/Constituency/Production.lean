/-!
# Symbols and productions

A production lets a nonterminal, its left-hand side, stand for a sequence of
symbols.  A grammar admits two shapes: a syntactic production has one or more
nonterminals on the right and no terminal, and a lexical production has exactly
one terminal there.  Productions of any other shape can be written down, so that
a grammar can say what is wrong with them.
-/

namespace Constituency

/-- A symbol on the right of a production: a word of the language or the name of
a class of phrases. -/
inductive Symbol where
  | terminal (word : String)
  | nonterminal (name : String)
  deriving DecidableEq, Repr, Hashable

namespace Symbol

/-- The word or the name, without the kind of the symbol. -/
def text : Symbol → String
  | .terminal word => word
  | .nonterminal name => name

def isTerminal : Symbol → Bool
  | .terminal _ => true
  | .nonterminal _ => false

def isNonterminal : Symbol → Bool
  | .terminal _ => false
  | .nonterminal _ => true

/-- The written form: a word stands between double quotes, a name by itself. -/
def written : Symbol → List Char
  | .terminal word => '"' :: (word.toList ++ ['"'])
  | .nonterminal name => name.toList

instance : ToString Symbol :=
  ⟨fun symbol => String.ofList symbol.written⟩

end Symbol

/-- The nonterminal `lhs` may stand for the symbols `rhs`. -/
structure Production where
  lhs : String
  rhs : List Symbol
  deriving DecidableEq, Repr, Hashable

namespace Production

/-- The production of a single word. -/
def lexical (lhs word : String) : Production :=
  ⟨lhs, [.terminal word]⟩

/-- The production of a sequence of nonterminals. -/
def syntactic (lhs : String) (names : List String) : Production :=
  ⟨lhs, names.map .nonterminal⟩

def length (production : Production) : Nat :=
  production.rhs.length

def isEmpty (production : Production) : Bool :=
  production.rhs.isEmpty

def word? (production : Production) : Option String :=
  match production.rhs with
  | [.terminal word] => some word
  | _ => none

/-- Whether the right-hand side is exactly one word. -/
def isLexical (production : Production) : Bool :=
  match production.rhs with
  | [symbol] => symbol.isTerminal
  | _ => false

/-- Whether the right-hand side is one or more nonterminals. -/
def isSyntactic (production : Production) : Bool :=
  !production.rhs.isEmpty && production.rhs.all Symbol.isNonterminal

def isUnit (production : Production) : Bool :=
  match production.rhs with
  | [symbol] => symbol.isNonterminal
  | _ => false

/-- The written form: the left-hand side, an arrow, and every symbol of the
right-hand side after a space. -/
def written (production : Production) : List Char :=
  production.lhs.toList ++ ' ' :: '-' :: '>' ::
    production.rhs.flatMap fun symbol => ' ' :: symbol.written

instance : ToString Production :=
  ⟨fun production => String.ofList production.written⟩

end Production

end Constituency
