import Phrasebook.Report.Excerpt
import Phrasebook.Script

/-!
# Reports as data

The diagnostics of a script, and its trees if they are asked for, as a JSON text with one field or item
in a line, two spaces further to the right in each nesting.
-/

namespace Phrasebook.Report

/-- A JSON value; the fields of an object keep their order. -/
inductive Json where
  | null
  | bool (b : Bool)
  | int (n : Int)
  | number (x : Float)
  | string (s : String)
  | list (items : List Json)
  | object (fields : List (String × Json))
deriving Inhabited

namespace Json

/-- A digit of base sixteen. -/
def hexDigit (n : Nat) : Char :=
  if n < 10 then Char.ofNat ('0'.toNat + n) else Char.ofNat ('a'.toNat + (n - 10))

/-- A character within quotes. -/
def escapeChar (c : Char) : List Char :=
  if c == '"' then ['\\', '"']
  else if c == '\\' then ['\\', '\\']
  else if c == '\n' then ['\\', 'n']
  else if c == '\r' then ['\\', 'r']
  else if c == '\t' then ['\\', 't']
  else if c == '\x08' then ['\\', 'b']
  else if c == '\x0c' then ['\\', 'f']
  else if c.toNat < 32 then ['\\', 'u', '0', '0', hexDigit (c.toNat / 16), hexDigit (c.toNat % 16)]
  else [c]

/-- A string in quotes. -/
def quoted (s : String) : String :=
  String.ofList ('"' :: s.toList.flatMap escapeChar ++ ['"'])

/-- A new line at a depth. -/
def newLine (depth : Nat) : String :=
  "\n" ++ String.join (List.replicate depth "  ")

/-- Parts between brackets, one in a line; brackets with nothing between them are written together. -/
def bracketed (left right : String) (depth : Nat) (parts : List String) : String :=
  if parts.isEmpty then left ++ right
  else
    left ++ String.intercalate "," (parts.map fun part => newLine (depth + 1) ++ part) ++
      newLine depth ++ right

mutual

/-- The text of a value that stands at a depth. -/
def render (depth : Nat) : Json → String
  | null => "null"
  | bool b => if b then "true" else "false"
  | int n => toString n
  | number x => (Decimal.renderData? x).getD "null"
  | string s => quoted s
  | list items => bracketed "[" "]" depth (renderItems (depth + 1) items)
  | object fields => bracketed "\x7b" "\x7d" depth (renderFields (depth + 1) fields)

/-- The texts of items. -/
def renderItems (depth : Nat) : List Json → List String
  | [] => []
  | item :: rest => render depth item :: renderItems depth rest

/-- The texts of fields. -/
def renderFields (depth : Nat) : List (String × Json) → List String
  | [] => []
  | (name, value) :: rest => (quoted name ++ ": " ++ render depth value) :: renderFields depth rest

end

/-- A natural number. -/
def nat (n : Nat) : Json := int n

/-- A value if there is one. -/
def option {α : Type} (f : α → Json) : Option α → Json
  | some a => f a
  | none => null

/-- A value under the name of its kind. -/
def tagged (kind : String) (value : Json) : Json :=
  object [(kind, value)]

end Json

namespace Json

/-- A span as an object of its four numbers. -/
def ofSpan (s : Span) : Json :=
  object [("start", nat s.start), ("end", nat s.stop), ("line", nat s.line),
    ("column", nat s.column)]

/-- A type with whether it stands for one value. -/
def ofPatternType (p : PatternType) : Json :=
  object [("ty", nat p.type), ("single", bool p.single)]

/-- A value under the name of its kind. -/
def ofValue : Value → Json
  | .nil => string "Nil"
  | .bool b => tagged "Bool" (bool b)
  | .int n => tagged "Int" (int n.toInt)
  | .number x => tagged "Number" (number x)
  | .string s => tagged "String" (string s)
  | .duration millis =>
    tagged "Duration"
      (object [("secs", nat (millis / 1000)), ("nanos", nat (millis % 1000 * 1000000))])
  | .time t => tagged "Time" (object [("seconds", nat t.seconds)])
  | .object typeName text =>
    tagged "Object" (object [("type_name", string typeName), ("text", string text)])

/-- A category by its name. -/
def ofCategory : Category → Json
  | .event => string "Event"
  | .sectionHead => string "Section"
  | .effect => string "Effect"
  | .condition => string "Condition"
  | .expression => string "Expression"

/-- A conjunction by its name. -/
def ofConjunction : Conjunction → Json
  | .and => string "And"
  | .or => string "Or"

/-- A severity by its name. -/
def ofSeverity : Severity → Json
  | .error => string "Error"
  | .warning => string "Warning"
  | .info => string "Info"

/-- A code by its name. -/
def ofCode : Code → Json
  | .noMatch => string "NoMatch"
  | .ambiguousMatch => string "AmbiguousMatch"
  | .typeMismatch => string "TypeMismatch"
  | .semantic => string "Semantic"
  | .structural => string "Structure"
  | .unsetVariable => string "UnsetVariable"
  | .recursionLimit => string "RecursionLimit"
  | .cancelled => string "Cancelled"
  | .other => string "Other"

/-- A diagnostic as an object. -/
def ofDiagnostic (d : Diagnostic) : Json :=
  object [("line", nat d.line), ("column", nat d.column), ("message", string d.message),
    ("severity", ofSeverity d.severity), ("code", ofCode d.code)]

/-- An expression of a kind. -/
def ofKind (kind : Json) (type : PatternType) (span : Span) : Json :=
  object [("kind", kind), ("ty", ofPatternType type), ("span", ofSpan span)]

mutual

/-- An expression as a tree of objects. -/
def ofExpr : Expr → Json
  | .literal value type span => ofKind (tagged "Literal" (ofValue value)) type span
  | .list items conjunction type span =>
    ofKind (tagged "List" (object [("items", list (ofItems items)),
      ("conjunction", ofConjunction conjunction)])) type span
  | .var name isLocal type span =>
    ofKind (tagged "Variable" (object [("name", string name), ("local", bool isLocal)])) type span
  | .node n type span => ofKind (tagged "Syntax" (ofNode [] n)) type span
  | .converted inner path type span =>
    ofKind (tagged "Converted" (object [("inner", ofExpr inner), ("path", list (path.map nat))]))
      type span

/-- The items of a list. -/
def ofItems : List Expr → List Json
  | [] => []
  | e :: rest => ofExpr e :: ofItems rest

/-- A node with the lines of its block. -/
def ofNode (children : List Json) : Node → Json
  | ⟨category, definition, name, patternIndex, mark, span, arguments, returns, captures, tags⟩ =>
    object [("category", ofCategory category), ("syntax", nat definition), ("name", string name),
      ("pattern_index", nat patternIndex), ("parse_mark", int mark.toInt), ("span", ofSpan span),
      ("arguments", list (ofArguments arguments)), ("children", list children),
      ("return_type", option ofPatternType returns), ("matches", list (captures.map string)),
      ("tags", list (tags.map string))]

/-- Arguments, those left out as well. -/
def ofArguments : List (Option Expr) → List Json
  | [] => []
  | none :: rest => null :: ofArguments rest
  | some e :: rest => ofExpr e :: ofArguments rest

end

mutual

/-- A statement with those inside it. -/
def ofStatement : Statement → Json
  | ⟨node, children⟩ => ofNode (ofStatements children) node

/-- Statements one after the other. -/
def ofStatements : List Statement → List Json
  | [] => []
  | s :: rest => ofStatement s :: ofStatements rest

end

/-- The result of parsing the script of a name. -/
def ofScript (name : String) (script : Script) (withTrees : Bool) : Json :=
  let trees := if withTrees then [("nodes", list (ofStatements script.statements))] else []
  object ([("file", string name), ("errors", nat (errorCount script.diagnostics)),
    ("warnings", nat (warningCount script.diagnostics)),
    ("diagnostics", list (script.diagnostics.map ofDiagnostic))] ++ trees)

end Json

/-- A report as JSON text. -/
def jsonText (name : String) (script : Script) (withTrees : Bool) : String :=
  (Json.ofScript name script withTrees).render 0

end Phrasebook.Report
