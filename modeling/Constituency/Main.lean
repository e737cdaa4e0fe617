import Constituency.CommandLine.Session

/-!
# The program

The outer layer of the command line: it reads files and the standard input, and
writes what a session answers.
-/

namespace Constituency

namespace CommandLine

/-- Whether a code stands for the system error of the given number.  Some calls
report the negative of the number. -/
def hasNumber (code : UInt32) (number : UInt32) : Bool :=
  code == number || code == 0 - number

def readFile (path : String) : IO (Except FileError ByteArray) := do
  try
    return .ok (← IO.FS.readBinFile path)
  catch
    | .noFileOrDirectory .. => return .error .notFound
    | .inappropriateType _ code _ =>
        return .error
          (if hasNumber code 20 then .notDirectory else .isDirectory)
    | .invalidArgument (some file) code details =>
        if hasNumber code 36 then
          return .error .nameTooLong
        else
          throw (.invalidArgument (some file) code details)
    | error => throw error

/-- Writes an outcome, and returns its exit code. -/
def finish (outcome : Outcome) : IO UInt32 := do
  (← IO.getStdout).putStr outcome.output
  (← IO.getStderr).putStr outcome.errors
  return outcome.exitCode.toUInt32

/-- Reads a line of an input up to its line feed.  There is none at the end of
the input. -/
partial def readLine (input : IO.FS.Stream) (line : ByteArray) :
    IO (Option ByteArray) := do
  let next ← input.read 1
  match next.toList with
  | [] => return if line.isEmpty then none else some line
  | byte :: _ =>
      if byte = 10 then return some line else readLine input (line.push byte)

/-- Prompts for sentences and answers them until the input ends. -/
partial def converseLive (grammar : Grammar) (options : Options) :
    IO UInt32 := do
  let output ← IO.getStdout
  output.putStr prompt
  output.flush
  match ← readLine (← IO.getStdin) .empty with
  | none => return 0
  | some line =>
      match answerLine grammar options line with
      | .error failure => finish (failureOutcome "" failure)
      | .ok answer =>
          output.putStr answer
          converseLive grammar options

/-- Does what a run has still to do. -/
def Plan.perform : Plan → IO UInt32
  | .finish outcome => CommandLine.finish outcome
  | .readFile path next => do
      let content ← CommandLine.readFile path
      (next content).perform
  | .converse grammar options => converseLive grammar options

end CommandLine

end Constituency

/-- The name of the program is the name of its executable file. -/
def main (arguments : List String) : IO UInt32 := do
  let path ← IO.appPath
  let request := Constituency.CommandLine.Options.ofArguments arguments
  (Constituency.CommandLine.Plan.ofRequest
    (path.fileName.getD path.toString) request).perform
