import Constituency.Parse
import Constituency.Text.Basic

/-!
# Command-line options

The arguments are read from left to right.  Options may come in any order and
more than once, and the last one of a kind decides.  The one argument that is
not an option names the file of the sentence.
-/

namespace Constituency

namespace CommandLine

/-- What the command line asks for. -/
structure Options where
  /-- The file that holds the sentence; without one the program prompts for
  sentences. -/
  sentenceFile : Option String
  /-- The file that holds the grammar; without one the English grammar is
  used. -/
  grammarFile : Option String
  /-- The greatest number of trees that is shown of a sentence. -/
  treeLimit : Nat
  /-- Whether the chart is printed. -/
  showChart : Bool
  deriving DecidableEq, Repr

/-- Why the arguments were refused. -/
inductive ArgumentError where
  /-- No file name follows the option for the grammar. -/
  | missingGrammarFile
  /-- No number in range follows the option for the limit. -/
  | missingTreeLimit
  /-- There is a second argument that is not an option. -/
  | extraArgument
  deriving DecidableEq, Repr

def ArgumentError.message : ArgumentError → String
  | .missingGrammarFile => "missing grammar file"
  | .missingTreeLimit => "--max-trees needs a number"
  | .extraArgument => "invalid arguments"

/-- What the arguments ask for. -/
inductive Request where
  /-- The usage of the program is printed. -/
  | help
  /-- The arguments are refused. -/
  | invalid (error : ArgumentError)
  /-- Sentences are parsed. -/
  | parse (options : Options)
  deriving DecidableEq, Repr

namespace Options

def initial : Options :=
  ⟨none, none, defaultTreeLimit, false⟩

def greatestTreeLimit : Nat :=
  UInt64.size - 1

def read (options : Options) : List String → Request
  | [] => .parse options
  | argument :: rest =>
      if argument = "-h" ∨ argument = "--help" then
        .help
      else if argument = "-c" ∨ argument = "--chart" then
        read { options with showChart := true } rest
      else if argument = "-g" ∨ argument = "--grammar" then
        match rest with
        | [] => .invalid .missingGrammarFile
        | file :: rest => read { options with grammarFile := some file } rest
      else if argument = "-m" ∨ argument = "--max-trees" then
        match rest with
        | [] => .invalid .missingTreeLimit
        | number :: rest =>
            match Text.readDecimal? greatestTreeLimit number.toList with
            | none => .invalid .missingTreeLimit
            | some limit => read { options with treeLimit := limit } rest
      else
        match options.sentenceFile with
        | none => read { options with sentenceFile := some argument } rest
        | some _ => .invalid .extraArgument

/-- What the arguments of the program ask for.  They are those that follow the
name under which the program is called, so there is always a name, and a call
without one is not described. -/
def ofArguments (arguments : List String) : Request :=
  initial.read arguments

end Options

end CommandLine

end Constituency
