import Constituency.ParseTree.Walk
import Constituency.Proofs.ParseTree.Path

/-!
# What the walks through a tree visit

A walk visits the nodes of the trees on its stack in the order of the recursive
traversal, one tree after the other.  So from any stack on it returns just the
nodes that satisfy the test, or the words of the leaves, in this order, and then
comes to its end.  Each node is tested once, as a test that keeps a record shows.
-/

namespace Constituency

variable {α σ : Type} {next : σ → Option α × σ}

/-- Asked for one element after the other, a state gives these elements, and there
are no more after them. -/
inductive Exhausts (next : σ → Option α × σ) : σ → List α → σ → Prop
  | ended {state stop : σ} (noMore : next state = (none, stop)) :
      Exhausts next state [] stop
  | found {state rest stop : σ} {element : α} {elements : List α}
      (given : next state = (some element, rest))
      (later : Exhausts next rest elements stop) :
      Exhausts next state (element :: elements) stop

theorem Exhausts.unique {state stop stop' : σ} {elements elements' : List α}
    (run : Exhausts next state elements stop)
    (run' : Exhausts next state elements' stop') :
    elements = elements' ∧ stop = stop' := by
  induction run generalizing elements' with
  | ended noMore =>
      cases run' with
      | ended noMore' =>
          exact ⟨rfl, congrArg Prod.snd (noMore.symm.trans noMore')⟩
      | found given' => simp [noMore] at given'
  | found given later ih =>
      cases run' with
      | ended noMore' => simp [given] at noMore'
      | found given' later' =>
          obtain ⟨sameElement, rfl⟩ := Prod.mk.inj (given.symm.trans given')
          obtain ⟨rfl, rfl⟩ := ih later'
          exact ⟨by rw [Option.some.inj sameElement], rfl⟩

section

variable (size : σ → Nat)
variable (shrinks : ∀ {state rest : σ} {element : α},
  next state = (some element, rest) → size rest < size state)

/-- States that get smaller come to an end. -/
theorem exhausts_exhaust (state : σ) :
    Exhausts next state (exhaust next size shrinks state).1
      (exhaust next size shrinks state).2 := by
  fun_induction exhaust next size shrinks state with
  | case1 state rest ended => exact .ended ended
  | case2 state rest element found elements stop laterEq ih =>
      rw [laterEq] at ih
      exact .found found ih

theorem exhausts_iff {state stop : σ} {elements : List α} :
    Exhausts next state elements stop ↔
      exhaust next size shrinks state = (elements, stop) := by
  have run := exhausts_exhaust size shrinks state
  constructor
  · intro run'
    obtain ⟨sameElements, sameStop⟩ := run.unique run'
    exact Prod.ext sameElements sameStop
  · intro equal
    rwa [equal] at run

end

/-- Keeps the elements that pass a test with a memory, which is handed on from one
element to the next. -/
def filterThreading (test : α → σ → Bool × σ) : List α → σ → List α × σ
  | [], memory => ([], memory)
  | element :: rest, memory =>
      let (passes, memory) := test element memory
      let (kept, memory) := filterThreading test rest memory
      (if passes then element :: kept else kept, memory)

/-- What a test remembers does not matter if its verdicts do not depend on it. -/
theorem filterThreading_eq (test : α → Bool) (remember : α → σ → σ)
    (elements : List α) (memory : σ) :
    filterThreading (fun element memory => (test element, remember element memory))
        elements memory =
      (elements.filter test,
        elements.foldl (fun memory element => remember element memory) memory) := by
  induction elements generalizing memory with
  | nil => rfl
  | cons element rest ih =>
      rw [filterThreading, List.foldl_cons, List.filter_cons]
      dsimp only
      rw [ih]

namespace ParseTree

@[simp]
theorem preorderList_append (first second : List ParseTree) :
    preorderList (first ++ second) =
      preorderList first ++ preorderList second := by
  induction first with
  | nil => rfl
  | cons tree rest ih => simp [preorderList, ih]

@[simp]
theorem wordsList_append (first second : List ParseTree) :
    wordsList (first ++ second) = wordsList first ++ wordsList second := by
  induction first with
  | nil => rfl
  | cons tree rest ih => simp [wordsList, ih]

theorem wordsList_eq_flatMap (trees : List ParseTree) :
    wordsList trees = trees.flatMap words := by
  induction trees with
  | nil => rfl
  | cons tree rest ih => rw [wordsList, ih, List.flatMap_cons]

theorem preorderList_cons (node : ParseTree) (stack : List ParseTree) :
    preorderList (node :: stack) =
      node :: preorderList (node.children ++ stack) := by
  rw [preorderList, preorder_eq, List.cons_append, preorderList_append]

section Nodes

variable {test : ParseTree → σ → Bool × σ} {walk rest : List ParseTree × σ}
variable {node : ParseTree} {nodes : List ParseTree}

/-- The nodes ahead of a walk that pass the test, and the memory of the test after
all nodes ahead. -/
def ahead (test : ParseTree → σ → Bool × σ) (walk : List ParseTree × σ) :
    List ParseTree × σ :=
  filterThreading test (preorderList walk.1) walk.2

theorem ahead_cons (node : ParseTree) (stack : List ParseTree) (memory : σ) :
    ahead test (node :: stack, memory) =
      let (passes, memory) := test node memory
      let (kept, memory) := ahead test (node.children ++ stack, memory)
      (if passes then node :: kept else kept, memory) := by
  rw [ahead, preorderList_cons, filterThreading]
  rfl

/-- A walk that stops at a node has passed over those that fail the test. -/
theorem ahead_of_found (found : nextNode? test walk = (some node, rest)) :
    ahead test walk = (node :: (ahead test rest).1, (ahead test rest).2) := by
  fun_induction nextNode? test walk with
  | case1 => simp at found
  | case2 visited stack memory later passes =>
      obtain ⟨visitedEq, rfl⟩ := Prod.mk.inj found
      rw [ahead_cons, passes, Option.some.inj visitedEq]
      rfl
  | case3 visited stack memory later fails ih =>
      rw [ahead_cons, fails, ← ih found]
      rfl

/-- A walk that finds no more nodes has tested all that were ahead. -/
theorem ahead_of_ended (ended : nextNode? test walk = (none, rest)) :
    rest.1 = [] ∧ ahead test walk = ([], rest.2) := by
  fun_induction nextNode? test walk with
  | case1 memory =>
      obtain ⟨_, rfl⟩ := Prod.mk.inj ended
      exact ⟨rfl, rfl⟩
  | case2 visited stack memory later passes => simp at ended
  | case3 visited stack memory later fails ih =>
      obtain ⟨empty, nonePass⟩ := ih ended
      refine ⟨empty, ?_⟩
      rw [ahead_cons, fails]
      dsimp only
      rw [nonePass]
      rfl

theorem ahead_of_exhausts (run : Exhausts (nextNode? test) walk nodes rest) :
    rest.1 = [] ∧ ahead test walk = (nodes, rest.2) := by
  induction run with
  | ended noMore => exact ahead_of_ended noMore
  | found given later ih =>
      refine ⟨ih.1, ?_⟩
      rw [ahead_of_found given, ih.2]

theorem exhausts_nextNode?_iff :
    Exhausts (nextNode? test) walk nodes rest ↔
      nodesFrom test walk = (nodes, rest) :=
  exhausts_iff _ sizeList_lt_of_nextNode?

theorem nodesFrom_eq (test : ParseTree → σ → Bool × σ)
    (walk : List ParseTree × σ) :
    nodesFrom test walk = ((ahead test walk).1, ([], (ahead test walk).2)) := by
  have run : Exhausts (nextNode? test) walk (nodesFrom test walk).1
      (nodesFrom test walk).2 := exhausts_nextNode?_iff.mpr rfl
  obtain ⟨empty, passing⟩ := ahead_of_exhausts run
  rw [passing, ← empty]

theorem nextNode?_eq_none_iff :
    (nextNode? test walk).1 = none ↔ (ahead test walk).1 = [] := by
  rcases asked : nextNode? test walk with ⟨_ | node, rest⟩
  · simp [(ahead_of_ended asked).2]
  · simp [ahead_of_found asked]

end Nodes

theorem ahead_memoryless (test : ParseTree → Bool) (stack : List ParseTree) :
    ahead (memoryless test) (stack, ()) = ((preorderList stack).filter test, ()) :=
  filterThreading_eq test (fun _ memory => memory) _ _

theorem subtrees_eq (test : ParseTree → Bool) (tree : ParseTree) :
    tree.subtrees test = tree.preorder.filter test := by
  rw [subtrees, nodesFrom_eq, ahead_memoryless, preorderList, preorderList,
    List.append_nil]

theorem hasNone_iff {test : ParseTree → Bool} {tree : ParseTree} :
    hasNone test tree = true ↔ ∀ node ∈ tree.preorder, test node = false := by
  rw [hasNone, Option.isNone_iff_eq_none, nextNode?_eq_none_iff, ahead_memoryless,
    List.filter_eq_nil_iff, preorderList, preorderList, List.append_nil]
  simp only [Bool.not_eq_true]

def recording (test : ParseTree → Bool) (node : ParseTree)
    (tested : List ParseTree) : Bool × List ParseTree :=
  (test node, tested ++ [node])

theorem ahead_recording (test : ParseTree → Bool)
    (stack tested : List ParseTree) :
    ahead (recording test) (stack, tested) =
      ((preorderList stack).filter test, tested ++ preorderList stack) := by
  have recorded := filterThreading_eq test (fun node tested => tested ++ [node])
    (preorderList stack) tested
  rw [List.foldl_append_eq_append, ← List.flatMap_def,
    List.flatMap_singleton'] at recorded
  exact recorded

section Words

variable {stack rest : List ParseTree} {word : String} {found : List String}

theorem wordsList_of_found (next : nextWord? stack = (some word, rest)) :
    wordsList stack = word :: wordsList rest := by
  fun_induction nextWord? stack with
  | case1 => simp at next
  | case2 leafWord span stack =>
      obtain ⟨wordEq, rfl⟩ := Prod.mk.inj next
      rw [wordsList, words, List.singleton_append, Option.some.inj wordEq]
  | case3 label span children stack ih =>
      rw [wordsList, words, ← wordsList_append, ih next]

theorem wordsList_of_ended (ended : nextWord? stack = (none, rest)) :
    rest = [] ∧ wordsList stack = [] := by
  fun_induction nextWord? stack with
  | case1 => exact ⟨(Prod.mk.inj ended).2.symm, rfl⟩
  | case2 leafWord span stack => simp at ended
  | case3 label span children stack ih =>
      obtain ⟨empty, noWords⟩ := ih ended
      refine ⟨empty, ?_⟩
      rw [wordsList, words, ← wordsList_append, noWords]

theorem wordsList_of_exhausts (run : Exhausts nextWord? stack found rest) :
    rest = [] ∧ wordsList stack = found := by
  induction run with
  | ended noMore => exact wordsList_of_ended noMore
  | found given later ih =>
      refine ⟨ih.1, ?_⟩
      rw [wordsList_of_found given, ih.2]

theorem exhausts_nextWord?_iff :
    Exhausts nextWord? stack found rest ↔ wordsFrom stack = (found, rest) :=
  exhausts_iff _ sizeList_lt_of_nextWord?

theorem wordsFrom_eq (stack : List ParseTree) :
    wordsFrom stack = (wordsList stack, []) := by
  have run : Exhausts nextWord? stack (wordsFrom stack).1 (wordsFrom stack).2 :=
    exhausts_nextWord?_iff.mpr rfl
  obtain ⟨empty, listed⟩ := wordsList_of_exhausts run
  rw [listed, ← empty]

theorem leaves_eq (tree : ParseTree) : tree.leaves = tree.words := by
  rw [leaves, wordsFrom_eq, wordsList, wordsList, List.append_nil]

end Words

/-- The walks through a tree agree with its recursive traversals.  From any stack
on they return what the traversals of the stacked trees give, one tree after the
other, and end with nothing left on the stack; each node, told by the path to it,
has then been tested once. -/
theorem walks_exact (test : ParseTree → Bool) (tree : ParseTree)
    (stack : List ParseTree) :
    tree.subtrees test = tree.preorder.filter test ∧
    tree.leaves = tree.words ∧
    (∀ nodes rest tested,
      Exhausts (nextNode? (recording test)) (stack, []) nodes (rest, tested) ↔
        nodes = stack.flatMap (fun top => top.preorder.filter test) ∧
        rest = [] ∧ tested = stack.flatMap preorder) ∧
    (∀ found rest, Exhausts nextWord? stack found rest ↔
      found = stack.flatMap words ∧ rest = []) ∧
    ∃ paths : List (List Nat),
      tree.preorder.map some = paths.map tree.nodeAt? ∧
      paths.Pairwise (· < ·) ∧
      ∀ path, path ∈ paths ↔ ∃ node, tree.nodeAt? path = some node := by
  refine ⟨subtrees_eq test tree, leaves_eq tree, fun nodes rest tested => ?_,
    fun found rest => ?_, tree.paths, (map_nodeAt?_paths tree).symm,
    pairwise_paths tree, fun path => mem_paths_iff⟩
  · rw [exhausts_nextNode?_iff, nodesFrom_eq, ahead_recording, List.nil_append,
      preorderList_eq_flatMap, List.filter_flatMap]
    simp only [Prod.mk.injEq, eq_comm]
  · rw [exhausts_nextWord?_iff, wordsFrom_eq, wordsList_eq_flatMap]
    simp only [Prod.mk.injEq, eq_comm]

end ParseTree

end Constituency
