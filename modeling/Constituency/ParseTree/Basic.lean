/-!
# Spans and parse trees

A span is a half-open range of token positions of a sentence: it begins at the
token `start` and ends before the token `stop`.

A leaf of a parse tree is a word of the sentence, and a branch is a phrase: the
label of a nonterminal over the trees of its parts.  Every node carries the span
of the words under it.
-/

namespace Constituency

/-- The tokens from `start` up to, but not including, `stop`. -/
structure Span where
  start : Nat
  stop : Nat
  deriving DecidableEq, Repr, Hashable

namespace Span

def length (span : Span) : Nat :=
  span.stop - span.start

instance : ToString Span :=
  ⟨fun span => toString span.start ++ ".." ++ toString span.stop⟩

end Span

/-- A parse tree. -/
inductive ParseTree where
  | leaf (word : String) (span : Span)
  | branch (label : String) (span : Span) (children : List ParseTree)
  deriving Repr

namespace ParseTree

def isLeaf : ParseTree → Bool
  | .leaf .. => true
  | .branch .. => false

def isBranch : ParseTree → Bool
  | .leaf .. => false
  | .branch .. => true

def label? : ParseTree → Option String
  | .leaf .. => none
  | .branch label .. => some label

def word? : ParseTree → Option String
  | .leaf word _ => some word
  | .branch .. => none

def span : ParseTree → Span
  | .leaf _ span => span
  | .branch _ span _ => span

/-- The trees directly below the root.  A leaf has none. -/
def children : ParseTree → List ParseTree
  | .leaf .. => []
  | .branch _ _ children => children

/-- The root by itself: its span, and its word or label. -/
def caption : ParseTree → String
  | .leaf word span => toString span ++ ": " ++ word
  | .branch label span _ => toString span ++ ": " ++ label

mutual

def height : ParseTree → Nat
  | .leaf .. => 1
  | .branch _ _ children => 1 + heightList children

/-- The greatest height of several trees, and zero if there are none. -/
def heightList : List ParseTree → Nat
  | [] => 0
  | tree :: rest => max tree.height (heightList rest)

end

mutual

def size : ParseTree → Nat
  | .leaf .. => 1
  | .branch _ _ children => 1 + sizeList children

def sizeList : List ParseTree → Nat
  | [] => 0
  | tree :: rest => tree.size + sizeList rest

end

@[simp]
theorem sizeList_append (first second : List ParseTree) :
    sizeList (first ++ second) = sizeList first + sizeList second := by
  induction first with
  | nil => simp [sizeList]
  | cons tree rest ih => simp [sizeList, ih, Nat.add_assoc]

theorem sizeList_children_lt (tree : ParseTree) :
    sizeList tree.children < tree.size := by
  cases tree with
  | leaf => simp [children, sizeList, size]
  | branch => simp [children, size]

mutual

/-- All nodes, each before those below it and the children of a node from left
to right. -/
def preorder : ParseTree → List ParseTree
  | .leaf word span => [.leaf word span]
  | .branch label span children =>
      .branch label span children :: preorderList children

def preorderList : List ParseTree → List ParseTree
  | [] => []
  | tree :: rest => tree.preorder ++ preorderList rest

end

mutual

def words : ParseTree → List String
  | .leaf word _ => [word]
  | .branch _ _ children => wordsList children

def wordsList : List ParseTree → List String
  | [] => []
  | tree :: rest => tree.words ++ wordsList rest

end

mutual

/-- Decides whether two trees are equal, spans included. -/
def decEq : (left right : ParseTree) → Decidable (left = right)
  | .leaf word span, .leaf word' span' =>
      if same : word = word' ∧ span = span' then
        isTrue (by rw [same.1, same.2])
      else
        isFalse fun equal =>
          same (by injection equal; constructor <;> assumption)
  | .branch label span children, .branch label' span' children' =>
      if same : label = label' ∧ span = span' then
        match decEqList children children' with
        | isTrue equal => isTrue (by rw [same.1, same.2, equal])
        | isFalse different =>
            isFalse fun equal => different (by injection equal)
      else
        isFalse fun equal =>
          same (by injection equal; constructor <;> assumption)
  | .leaf .., .branch .. => isFalse nofun
  | .branch .., .leaf .. => isFalse nofun

def decEqList : (left right : List ParseTree) → Decidable (left = right)
  | [], [] => isTrue rfl
  | tree :: rest, tree' :: rest' =>
      match decEq tree tree' with
      | isFalse different =>
          isFalse fun equal => different (by injection equal)
      | isTrue same =>
          match decEqList rest rest' with
          | isTrue equal => isTrue (by rw [same, equal])
          | isFalse different =>
              isFalse fun equal => different (by injection equal)
  | [], _ :: _ => isFalse nofun
  | _ :: _, [] => isFalse nofun

end

instance : DecidableEq ParseTree :=
  decEq

mutual

/-- A hash of the shape, the words, the labels and the spans of a tree. -/
def hashCode : ParseTree → UInt64
  | .leaf word span => mixHash (hash word) (hash span)
  | .branch label span children =>
      mixHash (hash label) (mixHash (hash span) (hashCodeList children))

def hashCodeList : List ParseTree → UInt64
  | [] => 7
  | tree :: rest => mixHash tree.hashCode (hashCodeList rest)

end

instance : Hashable ParseTree :=
  ⟨hashCode⟩

end ParseTree

end Constituency
