import Phrasebook.Repl.Keyword
import Phrasebook.Repl.Request
import Phrasebook.Report.Excerpt
import Phrasebook.Report.Tree

/-!
# Conversations

In a conversation one entry after the other is parsed and shown, never executed. An entry is a line, or
a block up to its blank line. The local variables that a statement sets stay set for the entries after
it.
-/

namespace Phrasebook

/-- The state of a conversation. -/
structure Repl where
  registry : Registry
  /-- the local variables that entries have set, in ascending order -/
  locals : List String := []
  /-- nodes are shown as trees, not in one line -/
  showTree : Bool := true
  colors : Bool := true
  /-- what an entry is asked for with -/
  entryPrompt : String := "sk> "
  /-- what a further line of a block is asked for with -/
  linePrompt : String := "..> "
  /-- the lines of a block that is not complete -/
  pending : Option String := none
  isOver : Bool := false

namespace Repl
open Text

/-- The name under which entries are reported. -/
def sourceName : String := "<repl>"

/-- What the command for help shows. -/
def helpText : String :=
  "Lines are parsed as effects, then as conditions.
A line ending in ':' opens a block; finish it with a blank line.

:expr <types> <text>   Parse <text> as an expression of the given types
                       (comma-separated, plural names for lists)
:tree                  Toggle full tree output
:types                 List registered types
:syntax                List registered syntax and patterns
:help                  Show this help
:quit                  Exit
"

/-- The state in which an entry is parsed. -/
def newContext (s : Repl) : Context :=
  { s.registry.newContext with source := some sourceName }

/-- Diagnostics about an entry. -/
def diagnosticsText (s : Repl) (text : String) (ds : List Diagnostic) : String :=
  String.join (ds.map (Report.diagnosticText s.colors sourceName text))

/-- A statement as a tree or in one line. -/
def describe (s : Repl) (statement : Statement) : String :=
  if s.showTree then Report.statementTree s.registry 0 statement
  else statement.node.category.name ++ " '" ++ statement.node.name ++ "'\n"

/-- An effect, or else a condition. -/
def parseStatement (s : Repl) (text : String) (c : Context) : Except Fault Node × Context :=
  match s.registry.parseLine .effect text c with
  | (.ok node, c) => (.ok node, c)
  | (.error fault, c) =>
    if fault.isFatal then (.error fault, c)
    else
      match s.registry.parseLine .condition text c with
      | (.ok node, c) => (.ok node, c)
      | (.error other, c) => (.error (if other.isFatal then other else fault), c)

/-- Shows a statement, and keeps the local variables that it sets. -/
def answerStatement (s : Repl) (text : String) : Repl × Except Fault String :=
  match s.parseStatement text (s.locals.foldl Context.declare s.newContext) with
  | (.ok node, c) =>
    ({ s with locals := addInOrder s.locals c.declared },
      .ok (s.diagnosticsText text c.diagnostics ++ s.describe { node, children := [] }))
  | (.error fault, _) => (s, .error fault)

/-- Shows the statements of a script and what was reported. -/
def answerScript (s : Repl) (text : String) : Except Fault String :=
  match s.registry.parseScript text s.newContext with
  | .ok script =>
    .ok (String.join (script.statements.map s.describe) ++
      Report.diagnosticsText s.colors sourceName text script.diagnostics)
  | .error cause => .error { cause }

/-- The types of some names. -/
def resolveTypes (s : Repl) (names : List String) : Except Fault (List PatternType) :=
  names.mapM fun name =>
    match s.registry.types.table.resolve name with
    | some type => .ok type
    | none => .error { cause := .unknownType name }

/-- Shows an expression of one of some types. -/
def answerExpression (s : Repl) (types : List String) (text : String) : Except Fault String := do
  let types ← s.resolveTypes types
  match s.registry.parseExpression text types s.newContext with
  | (.ok e, c) =>
    return s.diagnosticsText text c.diagnostics ++ Report.exprTree s.registry 0 "" e
  | (.error fault, _) => throw fault

/-- One line for every type. -/
def typeList (s : Repl) : String :=
  let types := s.registry.types.table
  String.join (types.entries.toList.map fun entry =>
    let parent := match entry.supertype with
      | some id => " : " ++ types.name id
      | none => ""
    entry.spec.name ++ " (" ++ entry.spec.plural ++ ")" ++ parent ++ "\n")

/-- One line for every definition, and one for each of its patterns. -/
def definitionList (s : Repl) : String :=
  String.join (s.registry.definitions.map fun d =>
    d.category.name ++ " '" ++ d.name ++ "' (priority " ++ toString d.priority ++ ")\n" ++
      String.join (d.patterns.map fun p => "    " ++ p.source ++ "\n"))

/-- What a request is answered with. -/
def respond (s : Repl) : Request → Repl × Except Fault String
  | .statement text => s.answerStatement text
  | .script text => (s, s.answerScript text)
  | .expression types text => (s, s.answerExpression types text)
  | .bareExpression => (s, .error { cause := .internal "usage: :expr <types> <expression>" })
  | .toggleTree =>
    let s := { s with showTree := !s.showTree }
    (s, .ok (if s.showTree then "tree output on\n" else "tree output off\n"))
  | .listTypes => (s, .ok s.typeList)
  | .listDefinitions => (s, .ok s.definitionList)
  | .help => (s, .ok helpText)
  | .unknown command =>
    (s, .error { cause := .internal ("unknown command ':" ++ command ++ "', try :help") })

/-- What an entry is answered with. -/
def answer (s : Repl) (entry : String) : Repl × Except Fault String :=
  s.respond (Request.read entry)

/-- What comes when a line is asked for. -/
inductive Input where
  | line (text : String)
  /-- the line could not be read -/
  | failed (fault : Fault)
  | interrupted
  | ended
deriving Repr

/-- What is done with the outside. -/
inductive Output where
  | print (text : String)
  /-- prints where errors are printed -/
  | complain (text : String)
  /-- adds an entry to the history -/
  | remember (entry : String)
deriving DecidableEq, Repr

/-- An error message in its color. -/
def errorText (message : String) : String :=
  Terminal.paintIf true "31" ("Error: " ++ message) ++ "\n"

/-- What a conversation starts with. -/
def greeting (r : Registry) : String :=
  let count := r.definitions.length
  Terminal.paintIf true "1;36" "Skript parser REPL v0.1.0" ++ "\n" ++
    s!"{count} syntax elements loaded. Type :help for commands, Ctrl+D to exit.\n\n"

/-- What the next line is asked for with. -/
def nextPrompt (s : Repl) : String :=
  if s.pending.isSome then s.linePrompt else s.entryPrompt

/-- Ends the conversation. -/
def finish (s : Repl) : Repl × List Output :=
  ({ s with isOver := true }, [.print "\nGoodbye!\n"])

/-- Takes an entry that is complete. -/
def takeEntry (s : Repl) (entry : String) : Repl × List Output :=
  let s := { s with pending := none }
  if (trimString entry).isEmpty then (s, [])
  else if isFarewell entry then s.finish
  else
    match s.answer entry with
    | (s, .ok text) => (s, [.remember entry, .print text])
    | (s, .error fault) => (s, [.remember entry, .complain (errorText fault.message)])

/-- Takes one more line. -/
def takeLine (s : Repl) (line : String) : Repl × List Output :=
  let entry := match s.pending with
    | none => line
    | some lines => lines ++ "\n" ++ line
  if Script.isComplete entry.toList then s.takeEntry entry
  else ({ s with pending := some entry }, [])

/-- Takes what came when a line was asked for. The end of input completes a block, and ends the
conversation where no block is open. -/
def step (s : Repl) : Input → Repl × List Output
  | .line text => s.takeLine text
  | .failed fault => ({ s with pending := none }, [.complain (errorText fault.message)])
  | .interrupted =>
    ({ s with pending := none }, if s.pending.isSome then [.print "\nInput cancelled.\n"] else [])
  | .ended =>
    match s.pending with
    | none => s.finish
    | some entry => s.takeEntry entry

/-- What came of a conversation. -/
structure Transcript where
  repl : Repl
  /-- everything that lines were asked for with -/
  prompts : List String
  outputs : List Output
  /-- how much of the input was left -/
  unread : Nat

/-- A conversation whose input ends after some inputs. -/
def converse (s : Repl) : List Input → Transcript
  | [] =>
    let (t, first) := s.step .ended
    if t.isOver then { repl := t, prompts := [s.nextPrompt], outputs := first, unread := 0 }
    else
      let (u, second) := t.step .ended
      { repl := u, prompts := [s.nextPrompt, t.nextPrompt], outputs := first ++ second, unread := 0 }
  | input :: rest =>
    let (t, outputs) := s.step input
    if t.isOver then { repl := t, prompts := [s.nextPrompt], outputs, unread := rest.length }
    else
      let later := t.converse rest
      { later with prompts := s.nextPrompt :: later.prompts, outputs := outputs ++ later.outputs }

end Repl

end Phrasebook
