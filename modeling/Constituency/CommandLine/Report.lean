import Constituency.CommandLine.Options
import Constituency.Grammar.Error
import Constituency.Text.Quoted

/-!
# Reports of failures

A failure that ends the program is reported as a record: the kind of the failure
with its named details.
-/

namespace Constituency

namespace CommandLine

/-- Why a file or an input could not be read. -/
inductive FileError where
  /-- There is no such file. -/
  | notFound
  /-- A directory is not a file. -/
  | isDirectory
  /-- The path leads through something that is not a directory. -/
  | notDirectory
  /-- A name in the path is longer than names of files may be. -/
  | nameTooLong
  /-- The content is not text in UTF-8. -/
  | notText
  deriving DecidableEq, Repr

/-- What ends the program with an error. -/
inductive Failure where
  | file (error : FileError)
  | grammar (error : GrammarError)
  deriving DecidableEq, Repr

/-- A record with named fields.  A record without fields is only its name. -/
def record (name : String) (fields : List (String × String)) : String :=
  if fields.isEmpty then
    name
  else
    name ++ " \x7b " ++
      String.intercalate ", "
        (fields.map fun (field, value) => field ++ ": " ++ value) ++
      " \x7d"

namespace FileError

/-- The number, the kind and the text of an error that the operating system
reports. -/
def systemText : FileError → Option (Nat × String × String)
  | .notFound => some (2, "NotFound", "No such file or directory")
  | .isDirectory => some (21, "IsADirectory", "Is a directory")
  | .notDirectory => some (20, "NotADirectory", "Not a directory")
  | .nameTooLong => some (36, "InvalidFilename", "File name too long")
  | .notText => none

def encodingText : String :=
  "stream did not contain valid UTF-8"

def message (error : FileError) : String :=
  match error.systemText with
  | some (code, _, text) => text ++ " (os error " ++ toString code ++ ")"
  | none => encodingText

def report (error : FileError) : String :=
  match error.systemText with
  | some (code, kind, text) =>
      record "Os"
        [("code", toString code), ("kind", kind),
          ("message", Text.quoted text)]
  | none =>
      record "Error"
        [("kind", "InvalidData"), ("message", Text.quoted encodingText)]

end FileError

def reportDefect : GrammarError → String
  | .empty => record "Empty" []
  | .malformedRule line fault =>
      record "Syntax"
        [("line", toString line), ("message", Text.quoted fault.message)]
  | .emptyRhs lhs => record "EmptyRhs" [("lhs", Text.quoted lhs)]
  | .mixedRhs production =>
      record "MixedRhs" [("production", Text.quoted (toString production))]
  | .severalWords production =>
      record "MultiWordLexical"
        [("production", Text.quoted (toString production))]
  | .undefinedNonterminal name production =>
      record "UndefinedNonterminal"
        [("name", Text.quoted name),
          ("production", Text.quoted (toString production))]
  | .undefinedStart start =>
      record "UndefinedStart" [("start", Text.quoted start)]
  | .unitCycle symbol => record "UnitCycle" [("symbol", Text.quoted symbol)]
  | .unproductive symbol =>
      record "Unproductive" [("symbol", Text.quoted symbol)]

def Failure.report : Failure → String
  | .file error => error.report
  | .grammar error => reportDefect error

end CommandLine

end Constituency
