import Constituency.Rule.Basic

/-!
# Defects of a grammar

The reasons for which a grammar is refused when it is built.
-/

namespace Constituency

/-- Why no grammar could be built. -/
inductive GrammarError where
  /-- There are no productions at all. -/
  | empty
  /-- A line, counted from one, is not a rule. -/
  | malformedRule (line : Nat) (fault : RuleFault)
  /-- A production for this nonterminal has nothing on the right. -/
  | emptyRhs (lhs : String)
  /-- Words and nonterminals stand on the same right-hand side. -/
  | mixedRhs (production : Production)
  /-- More than one word stands on a right-hand side. -/
  | severalWords (production : Production)
  /-- A nonterminal used in the production has no productions of its own. -/
  | undefinedNonterminal (name : String) (production : Production)
  /-- The start symbol has no productions. -/
  | undefinedStart (start : String)
  /-- The nonterminal derives itself by unit productions alone. -/
  | unitCycle (symbol : String)
  /-- The nonterminal derives no sequence of words. -/
  | unproductive (symbol : String)
  deriving DecidableEq, Repr

namespace GrammarError

def message : GrammarError → String
  | .empty => "empty ruleset"
  | .malformedRule line fault =>
      "grammar syntax error on line " ++ toString line ++ ": " ++ fault.message
  | .emptyRhs lhs =>
      "production for " ++ lhs ++ " has an empty right-hand side"
  | .mixedRhs production =>
      "production mixes terminals and nonterminals: " ++ toString production
  | .severalWords production =>
      "lexical production must have exactly one word: " ++ toString production
  | .undefinedNonterminal name production =>
      "nonterminal " ++ name ++ " is never defined (used in " ++
        toString production ++ ")"
  | .undefinedStart start => "start symbol " ++ start ++ " has no productions"
  | .unitCycle symbol =>
      "unit productions form a cycle through " ++ symbol
  | .unproductive symbol =>
      "nonterminal " ++ symbol ++ " can never derive any words"

end GrammarError

end Constituency
