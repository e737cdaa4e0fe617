import Constituency.Grammar.Build
import Constituency.Parse

/-!
# Log entries

The written form of what is reported while a grammar is built and a sentence is
parsed: a message of a certain severity, with named values.
-/

namespace Constituency

inductive Severity where
  | trace
  | debug
  | warning
  deriving DecidableEq, Repr

def Severity.name : Severity → String
  | .trace => "TRACE"
  | .debug => "DEBUG"
  | .warning => "WARN"

/-- A message with named values. -/
structure LogEntry where
  severity : Severity
  message : String
  fields : List (String × String)
  deriving DecidableEq, Repr

def BuildEvent.entry : BuildEvent → LogEntry
  | .droppedDuplicate production =>
      ⟨.warning, "dropping duplicate production",
        [("production", toString production)]⟩
  | .unreachable symbol =>
      ⟨.warning, "nonterminal is unreachable from the start symbol",
        [("symbol", symbol)]⟩
  | .built start productions nonterminals words =>
      ⟨.debug, "built grammar",
        [("start", start), ("productions", toString productions),
          ("nonterminals", toString nonterminals),
          ("words", toString words)]⟩

def ParseEvent.entry : ParseEvent → LogEntry
  | .cellOpened cell =>
      ⟨.trace, "new cell",
        [("start", toString cell.span.start),
          ("end", toString cell.span.stop), ("symbol", cell.symbol)]⟩
  | .chartFilled words cells derivations =>
      ⟨.debug, "filled chart",
        [("words", toString words), ("cells", toString cells),
          ("derivations", toString derivations)]⟩
  | .treesCounted count limit =>
      ⟨.debug, "counted trees",
        [("count", toString count), ("limit", toString limit)]⟩
  | .parsed words trees =>
      ⟨.debug, "parsed",
        [("words", toString words), ("trees", toString trees)]⟩

end Constituency
