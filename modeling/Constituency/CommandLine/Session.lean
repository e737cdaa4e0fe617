import Constituency.ParseTree.Walk
import Constituency.CommandLine.Report
import Constituency.English
import Constituency.ParseTree.Printer
import Constituency.Text.Basic
import Constituency.Token

/-!
# A session at the command line

The program parses the sentence in a file, or prompts for sentences and answers
each line of its input until the input ends.  Neither an unknown word nor a
sentence with too many trees ends a session.
-/

namespace Constituency

namespace CommandLine

/-- What a run of the program leaves behind. -/
structure Outcome where
  exitCode : Nat
  output : String
  errors : String
  deriving DecidableEq, Repr

/-- The usage of the program, which is known by the given name. -/
def usage (program : String) : String :=
  "Usage: " ++ program ++ " [FILE] [options]\n" ++
  "\n" ++
  "Parses the sentence in FILE, or prompts for sentences if no FILE is given.\n" ++
  "\n" ++
  "Options:\n" ++
  "  -h, --help             Print this message\n" ++
  "  -g, --grammar GRAMMAR  Use the grammar in GRAMMAR instead of the built-in one\n" ++
  "  -m, --max-trees N      Give up on sentences with more than N parses (default " ++
  toString defaultTreeLimit ++ ")\n" ++
  "  -c, --chart            Print the parse chart (defaults to not printing)"

def helpOutcome (program : String) : Outcome :=
  ⟨0, usage program ++ "\n", ""⟩

def invalidOutcome (program : String) (error : ArgumentError) : Outcome :=
  ⟨255, "",
    "argument error: " ++ error.message ++ ".\n\n" ++ usage program ++ "\n"⟩

def failureOutcome (output : String) (failure : Failure) : Outcome :=
  ⟨1, output, "Error: " ++ failure.report ++ "\n"⟩

def decode (content : ByteArray) : Except FileError String :=
  match String.fromUTF8? content with
  | some text => .ok text
  | none => .error .notText

def grammarOfFile (content : Except FileError ByteArray) :
    Except Failure Grammar :=
  match content.bind decode with
  | .error error => .error (.file error)
  | .ok text =>
      match Grammar.ofText text with
      | .error error => .error (.grammar error)
      | .ok grammar => .ok grammar

def builtInGrammar : Except Failure Grammar :=
  match English.build.result with
  | .error error => .error (.grammar error)
  | .ok grammar => .ok grammar

/-- What is printed of a tree: the tree, and the words of its noun phrases, each
on a line. -/
def describeTree (tree : ParseTree) : String :=
  toString tree ++ "\n\nNoun Phrase Chunks\n" ++
    String.join
      (tree.nounChunks.map fun chunk =>
        String.intercalate " " chunk.leaves ++ "\n") ++
    "\n"

/-- What is printed of the chart of a sentence.  If a word is unknown there is
none. -/
def describeChart (grammar : Grammar) (words : List String) : String :=
  match grammar.chart words with
  | .error _ => ""
  | .ok chart => "chart:\n" ++ toString chart ++ "\n"

/-- What is printed of the trees of a sentence. -/
def describeParse (grammar : Grammar) (words : List String) (limit : Nat) :
    String :=
  match grammar.parse words limit with
  | .error error => error.message ++ "\n"
  | .ok [] => "Could not parse sentence.\n"
  | .ok trees => String.join (trees.map describeTree)

/-- The answer to a sentence. -/
def respond (grammar : Grammar) (options : Options) (sentence : String) :
    String :=
  let words := tokenize sentence
  (if options.showChart then describeChart grammar words else "") ++
    describeParse grammar words options.treeLimit

def prompt : String :=
  "Sentence: "

/-- The lines of an input, without their line feeds. -/
def inputLines : List UInt8 → List (List UInt8)
  | [] => []
  | byte :: rest =>
      if byte = 10 then
        [] :: inputLines rest
      else
        match inputLines rest with
        | [] => [[byte]]
        | line :: others => (byte :: line) :: others

/-- The answer to a line of the input. -/
def respondLine (grammar : Grammar) (options : Options) (line : String) :
    String :=
  respond grammar options (String.ofList (Text.trim line.toList))

/-- The answer to a line of the input, which must be text. -/
def answerLine (grammar : Grammar) (options : Options) (line : ByteArray) :
    Except Failure String :=
  match decode line with
  | .error error => .error (.file error)
  | .ok text => .ok (respondLine grammar options text)

/-- Prompts for sentences and answers them until the input ends, or holds a line
that is not text.  There is one line at a time, and nothing of it is kept for the
next one: a buffer that is cleared before each line is read holds no more. -/
def converse (grammar : Grammar) (options : Options) :
    List (List UInt8) → Outcome
  | [] => ⟨0, prompt, ""⟩
  | line :: rest =>
      match answerLine grammar options ⟨line.toArray⟩ with
      | .error failure => failureOutcome prompt failure
      | .ok answer =>
          let later := converse grammar options rest
          { later with output := prompt ++ answer ++ later.output }

/-- The outcome for a sentence in a file. -/
def answerFile (grammar : Grammar) (options : Options)
    (content : Except FileError ByteArray) : Outcome :=
  match content.bind decode with
  | .error error => failureOutcome "" (.file error)
  | .ok sentence => ⟨0, respond grammar options sentence, ""⟩

/-- What a run has still to do.  Files are read when they are needed, and what
follows depends on what they hold. -/
inductive Plan where
  | finish (outcome : Outcome)
  | readFile (path : String) (next : Except FileError ByteArray → Plan)
  | converse (grammar : Grammar) (options : Options)

namespace Plan

/-- The run with a grammar, if there is one. -/
def answer (options : Options) : Except Failure Grammar → Plan
  | .error failure => .finish (failureOutcome "" failure)
  | .ok grammar =>
      match options.sentenceFile with
      | none => .converse grammar options
      | some file =>
          .readFile file fun content =>
            .finish (answerFile grammar options content)

/-- The run on a request to the program of the given name. -/
def ofRequest (program : String) : Request → Plan
  | .help => .finish (helpOutcome program)
  | .invalid error => .finish (invalidOutcome program error)
  | .parse options =>
      match options.grammarFile with
      | none => answer options builtInGrammar
      | some file =>
          .readFile file fun content => answer options (grammarOfFile content)

/-- The outcome with the files that can be read and the whole of the input. -/
def outcome (files : String → Except FileError ByteArray) (input : ByteArray) :
    Plan → Outcome
  | .finish outcome => outcome
  | .readFile path next => (next (files path)).outcome files input
  | .converse grammar options =>
      CommandLine.converse grammar options (inputLines input.data.toList)

end Plan

/-- The run of the program under a name, with its arguments, the files that it
can read and the whole of its input. -/
def run (program : String) (arguments : List String)
    (files : String → Except FileError ByteArray) (input : ByteArray) :
    Outcome :=
  (Plan.ofRequest program (Options.ofArguments arguments)).outcome files input

end CommandLine

end Constituency
