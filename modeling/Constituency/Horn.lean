/-!
# Forward closure of Horn clauses

A clause lets one conclude its head once every member of its body is known.  The
closure of a set of facts is everything that can be concluded from it, and is
found by rounds: one round goes once through all clauses, and the search ends
with the first round that concludes nothing new.
-/

namespace Constituency

/-- A clause over numbered facts: if all of `body` is known then so is
`head`. -/
structure HornClause where
  body : List Nat
  head : Nat
  deriving DecidableEq, Repr

namespace HornClause

/-- The known facts after one clause has been tried. -/
def apply (known : List Nat) (clause : HornClause) : List Nat :=
  if clause.head ∈ known then known
  else if ∀ fact ∈ clause.body, fact ∈ known then clause.head :: known
  else known

def round (clauses : List HornClause) (known : List Nat) : List Nat :=
  clauses.foldl apply known

/-- The known facts after rounds through the clauses until one of them concludes
nothing new, or the given number of rounds have been made. -/
def rounds (clauses : List HornClause) : Nat → List Nat → List Nat
  | 0, known => known
  | remaining + 1, known =>
      let next := round clauses known
      if next.length = known.length then known
      else rounds clauses remaining next

/-- Everything that the clauses conclude from the given facts.  Each round but
the last concludes the head of some clause for the first time, so there are no
more rounds to make than clauses. -/
def closure (clauses : List HornClause) (facts : List Nat) : List Nat :=
  rounds clauses clauses.length facts

end HornClause

end Constituency
