import Phrasebook.Script.Comment

/-!
# Requests

What an entry asks for. An entry that starts with a colon is a command; one whose first line ends in a
colon is a script; any other is a statement.
-/

namespace Phrasebook.Repl
open Phrasebook.Text

/-- What an entry asks for. -/
inductive Request where
  | statement (text : String)
  | script (text : String)
  /-- an expression of one of the types that the first word lists -/
  | expression (types : List String) (text : String)
  /-- there is no second word -/
  | bareExpression
  | toggleTree
  | listTypes
  | listDefinitions
  | help
  | unknown (command : String)
deriving DecidableEq, Repr

/-- The text before the first blank and the text after it, if there is a blank. -/
def splitWord? (text : List Char) : Option (List Char × List Char) :=
  match text.dropWhile fun c => !isBlank c with
  | [] => none
  | _ :: rest => some (text.takeWhile fun c => !isBlank c, rest)

/-- The names between commas. -/
def typeNames (text : List Char) : List String :=
  (((splitOn (· == ',') text).map trim).filter fun name => !name.isEmpty).map String.ofList

/-- What follows the name of the command for expressions. -/
def readExpression (text : List Char) : Request :=
  match splitWord? text with
  | none => .bareExpression
  | some (types, text) => .expression (typeNames types) (String.ofList (trim text))

/-- A command without its colon. -/
def readCommand (command : List Char) : Request :=
  let (name, rest) := match splitWord? command with
    | none => (command, [])
    | some (name, rest) => (name, trim rest)
  match String.ofList name with
  | "expr" | "e" => readExpression rest
  | "tree" => .toggleTree
  | "types" => .listTypes
  | "syntax" => .listDefinitions
  | "help" | "h" | "?" => .help
  | other => .unknown other

/-- The text of an entry opens a block. -/
def opensBlock (entry : List Char) : Bool :=
  (trimEnd (Script.stripComment ((lines entry).headD []))).getLast? == some ':'

/-- What an entry asks for. -/
def Request.read (entry : String) : Request :=
  let text := entry.toList
  match trim text with
  | ':' :: command => readCommand command
  | trimmed =>
    if opensBlock text then .script entry
    else .statement (String.ofList (trim (Script.stripComment trimmed)))

/-- The entry ends the conversation. -/
def isFarewell (entry : String) : Bool :=
  [":quit", ":q", ":exit"].contains (trimString entry)

end Phrasebook.Repl
