import Constituency.Grammar.Build
import Constituency.Rule.Reader
import Constituency.Text.Basic

/-!
# Grammars in written form

A grammar is written as lines, each of them blank or a rule.  It may be spread
over several blocks of text, such as the rules of a language and its lexicon.
The left-hand side of the very first rule is the start symbol.
-/

namespace Constituency

namespace Rule

/-- Reads the productions of lines of which the first has the given number. -/
def readLinesFrom (number : Nat) :
    List (List Char) → Except GrammarError (List Production)
  | [] => .ok []
  | line :: rest =>
      let line := dropComment line
      if line.all Text.isBlank then
        readLinesFrom (number + 1) rest
      else
        match read line with
        | .error fault => .error (.malformedRule number fault)
        | .ok rule =>
            (readLinesFrom (number + 1) rest).map (rule.productions ++ ·)

/-- Reads the productions of a text, line by line. -/
def readText (text : String) : Except GrammarError (List Production) :=
  readLinesFrom 1 (Text.lines text.toList)

/-- Reads the productions of several texts.  The lines of each are counted by
themselves. -/
def readBlocks : List String → Except GrammarError (List Production)
  | [] => .ok []
  | block :: rest =>
      match readText block with
      | .error error => .error error
      | .ok productions => (readBlocks rest).map (productions ++ ·)

end Rule

namespace Grammar

/-- Builds the grammar of productions whose first one names the start
symbol. -/
def buildFromFirst (productions : List Production) : Build :=
  match productions with
  | [] => ⟨[], .error .empty⟩
  | first :: _ => build first.lhs productions

/-- Builds the grammar written in several texts. -/
def buildFromBlocks (blocks : List String) : Build :=
  match Rule.readBlocks blocks with
  | .error error => ⟨[], .error error⟩
  | .ok productions => buildFromFirst productions

def ofBlocks (blocks : List String) : Except GrammarError Grammar :=
  (buildFromBlocks blocks).result

def ofText (text : String) : Except GrammarError Grammar :=
  ofBlocks [text]

end Grammar

end Constituency
