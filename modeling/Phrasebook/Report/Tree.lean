import Phrasebook.Script

/-!
# Trees as text

A node is shown in one line with its pattern, and below it, further to the right, its arguments by their
numbers and the lines of its block. An expression that is no node is shown in one line with its type,
and its parts below it.
-/

namespace Phrasebook.Report

/-- A line at a depth. -/
def lineAt (depth : Nat) (text : String) : String :=
  String.join (List.replicate depth "  ") ++ text ++ "\n"

/-- The text of the pattern that a node matched. -/
def patternText (r : Registry) (n : Node) : String :=
  match (r.definitions[n.definition]?).bind fun d => d.patterns[n.patternIndex]? with
  | some p => p.source
  | none => "?"

/-- The line of a node. -/
def nodeLine (r : Registry) (n : Node) : String :=
  let mark := if n.mark == 0 then "" else " mark=" ++ toString n.mark.toInt
  let tags := if n.tags.isEmpty then "" else " tags=" ++ String.intercalate "," n.tags
  let captures := String.join (n.captures.map fun text => " <" ++ text ++ ">")
  let returns := match n.returns with
    | some type => " -> " ++ r.types.table.patternTypeName type
    | none => ""
  n.category.name ++ " '" ++ n.name ++ "' " ++ patternText r n ++ mark ++ tags ++ captures ++ returns ++
    s!" @{n.span.line}:{n.span.column}"

/-- A literal as its type shows it; a string is shown in quotes. -/
def literalText (types : TypeTable) (v : Value) (type : TypeId) : String :=
  match v with
  | .string _ => v.display
  | _ => types.render type v

mutual

/-- An expression, its first line after a lead. -/
def exprTree (r : Registry) (depth : Nat) (lead : String) : Expr → String
  | .literal v type _ =>
    lineAt depth (lead ++ literalText r.types.table v type.type ++ " : " ++
      r.types.table.patternTypeName type)
  | .var name _ type _ =>
    lineAt depth (lead ++ "\x7b" ++ name ++ "\x7d : " ++ r.types.table.patternTypeName type)
  | .list items conjunction type _ =>
    lineAt depth (lead ++ "list (" ++ conjunction.name ++ ") : " ++
      r.types.table.patternTypeName type) ++ itemTrees r (depth + 1) items
  | .converted inner path type _ =>
    let steps := String.intercalate " -> " (path.map r.types.table.name)
    lineAt depth (lead ++ "converted via " ++ steps ++ " : " ++ r.types.table.patternTypeName type) ++
      exprTree r (depth + 1) "" inner
  | .node n _ _ => nodeTree r depth lead n

/-- The items of a list. -/
def itemTrees (r : Registry) (depth : Nat) : List Expr → String
  | [] => ""
  | e :: rest => exprTree r depth "" e ++ itemTrees r depth rest

/-- A node with its arguments. -/
def nodeTree (r : Registry) (depth : Nat) (lead : String) : Node → String
  | ⟨category, definition, name, patternIndex, mark, span, arguments, returns, captures, tags⟩ =>
    lineAt depth (lead ++ nodeLine r
      ⟨category, definition, name, patternIndex, mark, span, [], returns, captures, tags⟩) ++
      argumentTrees r (depth + 1) 0 arguments

/-- Arguments from a number on. -/
def argumentTrees (r : Registry) (depth index : Nat) : List (Option Expr) → String
  | [] => ""
  | none :: rest =>
    lineAt depth (toString index ++ ": <none>") ++ argumentTrees r depth (index + 1) rest
  | some e :: rest =>
    exprTree r depth (toString index ++ ": ") e ++ argumentTrees r depth (index + 1) rest

end

mutual

/-- A statement with the lines of its block. -/
def statementTree (r : Registry) (depth : Nat) : Statement → String
  | ⟨node, children⟩ => nodeTree r depth "" node ++ statementTrees r (depth + 1) children

/-- Statements one after the other. -/
def statementTrees (r : Registry) (depth : Nat) : List Statement → String
  | [] => ""
  | s :: rest => statementTree r depth s ++ statementTrees r depth rest

end

end Phrasebook.Report
