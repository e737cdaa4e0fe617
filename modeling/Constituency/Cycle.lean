/-!
# Depth-first search for a cycle

The search runs through a directed graph whose nodes are the numbers below some
bound.  It follows the arrows of a node in their given order, and ends at the
first arrow that leads back to the path from the current start to the current
node.
-/

namespace Constituency

namespace Cycle

/-- Searches everything that can be reached from a node.  The path lists the
nodes that the search came through, and `finished` those from which every arrow
has been followed: the former are active, the latter are done, and all others are
new.  The result is the node at which a path met itself, or else the nodes
finished by now.

The nodes of a path are distinct, so a path is never longer than the number of
nodes, which is what `steps` starts with. -/
def searchFrom (arrows : Nat → List Nat) :
    (steps : Nat) → (path finished : List Nat) → (node : Nat) →
      Except Nat (List Nat)
  | 0, _, finished, _ => .ok finished
  | steps + 1, path, finished, node =>
      let explored :=
        (arrows node).foldlM
          (fun finished target =>
            if target ∈ node :: path then .error target
            else if target ∈ finished then .ok finished
            else searchFrom arrows steps (node :: path) finished target)
          finished
      match explored with
      | .error target => .error target
      | .ok finished => .ok (node :: finished)

/-- Searches from every node below the bound in turn. -/
def search (arrows : Nat → List Nat) (bound : Nat) :
    Except Nat (List Nat) :=
  (List.range bound).foldlM
    (fun finished node =>
      if node ∈ finished then .ok finished
      else searchFrom arrows bound [] finished node)
    []

/-- The node at which the search first closes a cycle. -/
def first? (arrows : Nat → List Nat) (bound : Nat) : Option Nat :=
  match search arrows bound with
  | .error node => some node
  | .ok _ => none

end Cycle

end Constituency
