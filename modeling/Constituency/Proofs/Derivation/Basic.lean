import Constituency.Grammar.Basic
import Constituency.ParseTree.Basic

/-!
# Derivation trees of a grammar

A bare tree is a parse tree without the spans of its nodes.  It conforms to a
grammar if the label of every branch together with the symbols of its children
is a production of the grammar.  A conforming tree derives the words of its
leaves from the nonterminal at its root.

These notions do not mention charts: they are what the parses of a sentence are
held against.
-/

namespace Constituency

/-- A parse tree without the spans of its nodes. -/
inductive BareTree where
  | leaf (word : String)
  | branch (label : String) (children : List BareTree)

namespace BareTree

def symbol : BareTree → Symbol
  | .leaf word => .terminal word
  | .branch label _ => .nonterminal label

mutual

def words : BareTree → List String
  | .leaf word => [word]
  | .branch _ children => wordsList children

def wordsList : List BareTree → List String
  | [] => []
  | tree :: rest => tree.words ++ wordsList rest

end

/-- The label of every branch with the symbols of its children is a production
of the grammar. -/
inductive Conforms (grammar : Grammar) : BareTree → Prop
  | leaf (word : String) : Conforms grammar (.leaf word)
  | branch {label : String} {children : List BareTree}
      (listed : ⟨label, children.map symbol⟩ ∈ grammar.productions)
      (below : ∀ child ∈ children, Conforms grammar child) :
      Conforms grammar (.branch label children)

/-- A tree that derives the words from the nonterminal by productions of the
grammar. -/
structure Derives (grammar : Grammar) (name : String) (sentence : List String)
    (tree : BareTree) : Prop where
  conforms : tree.Conforms grammar
  symbol_eq : tree.symbol = .nonterminal name
  words_eq : tree.words = sentence

@[simp]
theorem words_leaf (word : String) : (leaf word).words = [word] :=
  rfl

@[simp]
theorem words_branch (label : String) (children : List BareTree) :
    (branch label children).words = children.flatMap words := by
  rw [words]
  induction children with
  | nil => rfl
  | cons tree rest ih => rw [wordsList, ih, List.flatMap_cons]

theorem eq_leaf_of_symbol_eq {tree : BareTree} {word : String}
    (terminal : tree.symbol = .terminal word) : tree = .leaf word := by
  cases tree with
  | leaf word' =>
      obtain rfl := Symbol.terminal.inj terminal
      rfl
  | branch label children => simp [symbol] at terminal

end BareTree

namespace ParseTree

mutual

/-- The tree without the spans of its nodes. -/
def bare : ParseTree → BareTree
  | .leaf word _ => .leaf word
  | .branch label _ children => .branch label (bareList children)

def bareList : List ParseTree → List BareTree
  | [] => []
  | tree :: rest => tree.bare :: bareList rest

end

@[simp]
theorem bare_leaf (word : String) (span : Span) :
    (leaf word span).bare = .leaf word :=
  rfl

@[simp]
theorem bare_branch (label : String) (span : Span)
    (children : List ParseTree) :
    (branch label span children).bare =
      .branch label (children.map bare) := by
  rw [bare]
  congr 1
  induction children with
  | nil => rfl
  | cons tree rest ih => rw [bareList, ih, List.map_cons]

end ParseTree

end Constituency
