import Phrasebook.CommandLine.Program

/-!
# The outside of the program

Carries out the steps of the program on the real files, input and terminal.
-/

namespace Phrasebook.CommandLine

/-- The problem with a number of the system, which may come with its sign turned. -/
def FileProblem.ofNumber? (n : UInt32) : Option FileProblem :=
  [(20, FileProblem.notFolder), (21, .isFolder), (36, .nameTooLong)].findSome? fun (number, problem) =>
    if n == number || n == -number then some problem else none

/-- The problem that an error on opening or reading a file stands for. -/
def FileProblem.ofError (error : IO.Error) : FileProblem :=
  match error with
  | .noFileOrDirectory .. => .notFound
  | .inappropriateType _ number _ | .invalidArgument _ number _ =>
    (ofNumber? number).getD (.other (toString error))
  | _ => .other (toString error)

/-- The text of a file, or why it cannot be read. -/
def loadFile (path : String) : IO (Except FileProblem String) := do
  match ← (IO.FS.readBinFile path).toBaseIO with
  | .error error => return .error (.ofError error)
  | .ok bytes => return (String.fromUTF8? bytes).elim (.error .notText) .ok

/-- A text with all that is left of the standard input behind it. -/
partial def drainInput (text : String) : IO String := do
  let line ← (← IO.getStdin).getLine
  if line.isEmpty then return text else drainInput (text ++ line)

/-- Prints a text at once. -/
def printNow (text : String) : IO Unit := do
  IO.print text
  (← IO.getStdout).flush

/-- Does what a conversation asks of the outside. -/
def perform : Repl.Output → IO Unit
  | .print text => printNow text
  | .complain text => IO.eprint text
  | .remember _ => return

/-- A line from a terminal. -/
def askLine (prompt : String) : IO Repl.Input := do
  printNow prompt
  let line ← (← IO.getStdin).getLine
  if line.isEmpty then return .ended
  else return .line (String.ofList ((Text.lines line.toList).headD []))

/-- Holds a conversation on a terminal. -/
partial def talk (repl : Repl) : IO Unit := do
  unless repl.isOver do
    let (repl, outputs) := repl.step (← askLine repl.nextPrompt)
    outputs.forM perform
    talk repl

/-- Holds a conversation with what is left of the standard input. -/
def replay (repl : Repl) : IO Unit := do
  let inputs := (entries (← drainInput "")).map Repl.Input.line
  (repl.converse inputs).outputs.forM perform

/-- Takes the steps of the program, and gives the code that it ends with. -/
def Program.carryOut : Program → IO UInt32
  | .exit code => return code.toUInt32
  | .print text next => do
    printNow text
    next.carryOut
  | .complain text next => do
    IO.eprint text
    next.carryOut
  | .readFile path next => do (next (← loadFile path)).carryOut
  | .readInput next => do (next (← drainInput "")).carryOut
  | .converse repl next => do
    if ← (← IO.getStdin).isTty then talk repl else replay repl
    next.carryOut

end Phrasebook.CommandLine

/-- Runs the program with its arguments. -/
def main (arguments : List String) : IO UInt32 := do
  let isTerminal ← (← IO.getStderr).isTty
  (Phrasebook.CommandLine.Program.ofArguments arguments isTerminal).carryOut
