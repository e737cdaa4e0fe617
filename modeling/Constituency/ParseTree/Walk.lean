import Constituency.ParseTree.Basic

/-!
# Walks through a tree

A walk visits the nodes of a tree one at a time, each before those below it and
the children of a node from left to right.  Its state is the stack of the nodes
still to be visited, the next one first, so a walk can be left off after any
node, and no more of a tree is looked at than the caller asks for.
-/

namespace Constituency

variable {α σ : Type}

/-- Asks for one element after the other until there are no more, and returns the
elements together with the last state.  The states get smaller on the way. -/
def exhaust (next : σ → Option α × σ) (size : σ → Nat)
    (shrinks : ∀ {state rest : σ} {element : α},
      next state = (some element, rest) → size rest < size state)
    (state : σ) : List α × σ :=
  match _found : next state with
  | (none, rest) => ([], rest)
  | (some element, rest) =>
      let (elements, rest) := exhaust next size shrinks rest
      (element :: elements, rest)
termination_by size state
decreasing_by exact shrinks _found

namespace ParseTree

theorem sizeList_expand_lt (node : ParseTree) (stack : List ParseTree) :
    sizeList (node.children ++ stack) < sizeList (node :: stack) := by
  have := node.sizeList_children_lt
  simp only [sizeList_append, sizeList]
  omega

/-- Visits nodes until one satisfies the test, and returns it.  The test may keep
a memory, which is part of the state of the walk. -/
def nextNode? (test : ParseTree → σ → Bool × σ) :
    List ParseTree × σ → Option ParseTree × (List ParseTree × σ)
  | ([], memory) => (none, ([], memory))
  | (node :: stack, memory) =>
      match test node memory with
      | (true, memory) => (some node, (node.children ++ stack, memory))
      | (false, memory) => nextNode? test (node.children ++ stack, memory)
termination_by walk => sizeList walk.1
decreasing_by exact sizeList_expand_lt node stack

/-- A walk has less before it after every node that it returns. -/
theorem sizeList_lt_of_nextNode? {test : ParseTree → σ → Bool × σ}
    {walk rest : List ParseTree × σ} {node : ParseTree}
    (found : nextNode? test walk = (some node, rest)) :
    sizeList rest.1 < sizeList walk.1 := by
  fun_induction nextNode? test walk with
  | case1 => simp at found
  | case2 visited stack memory later passes =>
      simp only [Prod.mk.injEq] at found
      rw [← found.2]
      exact sizeList_expand_lt visited stack
  | case3 visited stack memory later fails ih =>
      exact Nat.lt_trans (ih found) (sizeList_expand_lt visited stack)

/-- All nodes that satisfy the test from a state of a walk on. -/
def nodesFrom (test : ParseTree → σ → Bool × σ) :
    List ParseTree × σ → List ParseTree × (List ParseTree × σ) :=
  exhaust (nextNode? test) (fun walk => sizeList walk.1) sizeList_lt_of_nextNode?

def memoryless (test : ParseTree → Bool) (node : ParseTree) (_ : Unit) :
    Bool × Unit :=
  (test node, ())

def subtrees (test : ParseTree → Bool) (tree : ParseTree) : List ParseTree :=
  (nodesFrom (memoryless test) ([tree], ())).1

def hasNone (test : ParseTree → Bool) (tree : ParseTree) : Bool :=
  (nextNode? (memoryless test) ([tree], ())).1.isNone

/-- Visits nodes until one is a leaf, and returns its word. -/
def nextWord? : List ParseTree → Option String × List ParseTree
  | [] => (none, [])
  | .leaf word _ :: stack => (some word, stack)
  | .branch _ _ children :: stack => nextWord? (children ++ stack)
termination_by stack => sizeList stack
decreasing_by
  simp only [sizeList_append, sizeList, size]
  omega

/-- A walk has less before it after every word that it returns. -/
theorem sizeList_lt_of_nextWord? {stack rest : List ParseTree} {word : String}
    (found : nextWord? stack = (some word, rest)) :
    sizeList rest < sizeList stack := by
  fun_induction nextWord? stack with
  | case1 => simp at found
  | case2 leafWord span stack =>
      simp only [Prod.mk.injEq] at found
      rw [← found.2]
      simp only [sizeList, size]
      omega
  | case3 label span children stack ih =>
      refine Nat.lt_trans (ih found) ?_
      simp only [sizeList_append, sizeList, size]
      omega

/-- The words of all leaves from a stack on. -/
def wordsFrom : List ParseTree → List String × List ParseTree :=
  exhaust nextWord? sizeList sizeList_lt_of_nextWord?

def leaves (tree : ParseTree) : List String :=
  (wordsFrom [tree]).1

/-!
## Chunks

The chunks of a tree for some label are the smallest phrases with that label:
those with no phrase of the same label below them.  Phrases may be nested with
any number of other phrases between them, so all of what is below a phrase is
searched, and not only its children.
-/

def isLabelled (label : String) (tree : ParseTree) : Bool :=
  tree.label? == some label

/-- The branches with a label that have no other branch with that label below
them, in the order in which a walk through the tree meets them. -/
def minimalChunks (label : String) (tree : ParseTree) : List ParseTree :=
  (tree.subtrees (isLabelled label)).filter fun phrase =>
    phrase.children.all (hasNone (isLabelled label))

def nounPhrase : String :=
  "NP"

def nounChunks (tree : ParseTree) : List ParseTree :=
  tree.minimalChunks nounPhrase

end ParseTree

end Constituency
