import Phrasebook.CommandLine.Folder
import Phrasebook.CommandLine.Help
import Phrasebook.CommandLine.Input
import Phrasebook.CommandLine.Options
import Phrasebook.Config.Text
import Phrasebook.Repl
import Phrasebook.Report.Json
import Phrasebook.Standard.Vocabulary

/-!
# The program

What the program does for its arguments, as a tree of the steps it takes: it parses the files one after
the other, reports what it finds, and starts a conversation unless it was asked not to. It ends with 0
if every file was free of errors, with 1 if one was not, and with 2 if the program itself failed.
-/

namespace Phrasebook.CommandLine

/-- What the program does. -/
inductive Program where
  | exit (code : Nat)
  | print (text : String) (next : Program)
  /-- prints where errors are printed -/
  | complain (text : String) (next : Program)
  /-- reads a file, or tells why it cannot be read -/
  | readFile (path : String) (next : Except FileProblem String → Program)
  /-- reads all that is left of the input -/
  | readInput (next : String → Program)
  /-- holds a conversation on what is left of the input -/
  | converse (repl : Repl) (next : Program)

instance : Inhabited Program := ⟨.exit 0⟩

namespace Program

/-- Ends with an error message. -/
def fail (message : String) : Program :=
  .complain (Repl.errorText message) (.exit 2)

/-- Reports what was found in a script. -/
def report (o : Options) (colors : Bool) (r : Registry) (name source : String) (script : Script)
    (next : Program) : Program :=
  if o.json then .print (Report.jsonText name script o.tree ++ "\n") next
  else
    .print (if o.tree then Report.statementTrees r 0 script.statements else "")
      (.complain (Report.diagnosticsText colors name source script.diagnostics) next)

/-- Parses a source and reports what was found; `next` learns whether it is free of errors. -/
def checkSource (o : Options) (colors : Bool) (r : Registry) (name source : String)
    (next : Bool → Program) : Program :=
  match r.parseScript source { r.newContext with source := some name } with
  | .error cause => fail cause.message
  | .ok script => report o colors r name source script (next !script.hasErrors)

/-- Parses files one after the other; `clean` tells whether those before were free of errors. -/
def checkFiles (o : Options) (colors : Bool) (r : Registry) (clean : Bool) (next : Bool → Program) :
    List String → Program
  | [] => next clean
  | path :: rest =>
    let check (name source : String) : Program :=
      checkSource o colors r name source fun isClean =>
        checkFiles o colors r (clean && isClean) next rest
    if path == "-" then .readInput (check "<stdin>")
    else
      .readFile path fun
        | .ok source => check path source
        | .error problem => fail s!"failed to read {path}: {problem.message}"

/-- The end code of the program. -/
def exitCode (clean : Bool) : Nat :=
  if clean then 0 else 1

/-- A conversation, with a greeting unless files were parsed before. -/
def startConversation (o : Options) (colors : Bool) (r : Registry) (clean : Bool) : Program :=
  .print (if o.files.isEmpty then Repl.greeting r else "")
    (.converse { registry := r, colors } (.exit (exitCode clean)))

/-- The program with its settings. -/
def withConfig (o : Options) (isTerminal : Bool) (c : Config) : Program :=
  let colors := !o.noColor && !o.json && isTerminal
  match Standard.registry (o.adjust c) with
  | .error cause => fail cause.message
  | .ok r =>
    checkFiles o colors r true
      (fun clean =>
        if o.batch then .exit (exitCode clean) else startConversation o colors r clean)
      o.files

/-- The program with its options. -/
def withOptions (o : Options) (isTerminal : Bool) : Program :=
  if o.help then .print helpText (.exit 0)
  else if o.version then .print versionText (.exit 0)
  else
    match o.configFile with
    | none => withConfig o isTerminal {}
    | some path =>
      .readFile path fun
        | .error problem => fail (Cause.io problem.message).message
        | .ok text =>
          match ({} : Config).applyText text with
          | .error cause => fail cause.message
          | .ok c => withConfig o isTerminal c

/-- The program with its arguments. `isTerminal` tells whether errors are printed on a terminal. -/
def ofArguments (arguments : List String) (isTerminal : Bool) : Program :=
  match Options.read arguments with
  | .error problem => fail problem.message
  | .ok o => withOptions o isTerminal

end Program

/-- What came of a run of the program. -/
structure Outcome where
  code : Nat
  output : String
  errors : String
deriving DecidableEq, Repr

namespace Outcome

/-- An outcome after some outputs of a conversation. -/
def after (outputs : List Repl.Output) (later : Outcome) : Outcome :=
  outputs.foldr (fun output later =>
    match output with
    | .print text => { later with output := text ++ later.output }
    | .complain text => { later with errors := text ++ later.errors }
    | .remember _ => later) later

end Outcome

/-- Runs the program on some files and an input, without a terminal. -/
def Program.run (files : String → Except FileProblem String) : Program → String → Outcome
  | .exit code, _ => { code, output := "", errors := "" }
  | .print text next, input =>
    let later := next.run files input
    { later with output := text ++ later.output }
  | .complain text next, input =>
    let later := next.run files input
    { later with errors := text ++ later.errors }
  | .readFile path next, input => (next (files path)).run files input
  | .readInput next, input => (next input).run files ""
  | .converse repl next, input =>
    .after (repl.converse ((entries input).map .line)).outputs (next.run files "")

end Phrasebook.CommandLine
