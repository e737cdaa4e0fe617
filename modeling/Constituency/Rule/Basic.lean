import Constituency.Production

/-!
# Rules

A rule gives one or more alternatives for one left-hand side, and stands for one
production per alternative.  This module also names what can be wrong with a
written rule.
-/

namespace Constituency

/-- A left-hand side with its alternatives, each a sequence of symbols. -/
structure Rule where
  lhs : String
  alternatives : List (List Symbol)
  deriving DecidableEq, Repr

/-- The productions that a rule stands for, in the order of its alternatives. -/
def Rule.productions (rule : Rule) : List Production :=
  rule.alternatives.map (Production.mk rule.lhs)

/-- What is wrong with a written rule, with the rest of the line where it was
met. -/
inductive RuleFault where
  /-- No name begins the line. -/
  | missingLhs (rest : String)
  /-- No arrow follows the left-hand side. -/
  | missingArrow (rest : String)
  /-- Neither a name nor a word begins here in an alternative. -/
  | missingName (rest : String)
  /-- A word has no closing quote. -/
  | unclosedWord (rest : String)
  /-- A word has nothing between its quotes. -/
  | emptyWord
  /-- An alternative has no symbols. -/
  | emptyAlternative
  deriving DecidableEq, Repr

namespace RuleFault

/-- The pattern of names, as messages show it. -/
def namePattern : String :=
  "[a-zA-Z0-9\\-_]+"

/-- The pattern of quoted words, as messages show it. -/
def wordPattern : String :=
  "\"[^\"]*\""

def mismatch (pattern rest : String) : String :=
  "couldn't match " ++ pattern ++ " at '" ++ rest ++ "'"

def message : RuleFault → String
  | .missingLhs rest => "rule symbol: name: " ++ mismatch namePattern rest
  | .missingArrow rest => "rule arrow: " ++ mismatch "->" rest
  | .missingName rest => "rule production: name: " ++ mismatch namePattern rest
  | .unclosedWord rest =>
      "rule production: literal: " ++ mismatch wordPattern rest
  | .emptyWord => "rule production: literal: empty word \"\""
  | .emptyAlternative => "rule production: empty alternative"

end RuleFault

end Constituency
