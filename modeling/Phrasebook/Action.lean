import Phrasebook.Context
import Phrasebook.ContextValue
import Phrasebook.Types.Conversion

/-!
# Decisions about matched nodes

When a pattern matches, its definition decides about the node: it accepts it, changed or not, or turns
it down for a reason. On the way it may look at its surroundings, report, declare names, open and close
scopes, cancel the parse, and have another text parsed as an expression. A decision is a tree of such
actions, so that the parser can carry it out and what holds of it is said by recursion on the tree.

Decisions that do more are left out. A decision here sees no more than a `View` gives: neither what was
reported, nor the near misses, the number of candidates tried, the settings or the definitions of the
registry. It has no line parsed, takes back nothing that was reported, and changes neither the place of the
line nor the depth.
-/

namespace Phrasebook

/-- What a decision can see of the state and the types. -/
structure View where
  source : Option String
  line : Nat
  column : Nat
  /-- the names declared in each open scope, the innermost first -/
  scopes : List (List String)
  depth : Nat
  enclosing : List Nat
  /-- the parse has been asked to stop: the next check would end it -/
  cancelled : Bool
  types : TypeSystem
  contextValues : List ContextValue

/-- A change that a decision makes to the state. -/
inductive Edit where
  | report (d : Diagnostic)
  | declare (name : String)
  | pushScope
  | popScope
  | cancel
deriving Repr

/-- Makes a change. -/
def Edit.apply : Edit → Context → Context
  | report d, c => c.report d
  | declare name, c => c.declare name
  | pushScope, c => c.pushScope
  | popScope, c => c.popScope
  | cancel, c => c.cancel

/-- A decision about a node. -/
inductive Action where
  | accept (node : Node)
  | reject (reason : String)
  | look (next : View → Action)
  | edit (change : Edit) (next : Action)
  /-- has a text parsed as an expression of one of some types -/
  | parse (text : String) (types : List PatternType) (next : Except Fault Expr → Action)

instance : Inhabited Action := ⟨.reject ""⟩

namespace Action

/-- Makes several changes in order. -/
def edits (changes : List Edit) (next : Action) : Action :=
  changes.foldr edit next

end Action

/-- A part of a decision: it ends it, or passes the node on to what comes next. -/
abbrev Clause := Node → (Node → Action) → Action

namespace Clause

/-- The decision of several parts in order, which accepts the node in the end. -/
def decision (clauses : List Clause) (node : Node) : Action :=
  clauses.foldr (fun clause next node => clause node next) Action.accept node

/-- Makes changes that depend on the node. -/
def editing (changes : Node → List Edit) : Clause := fun node next =>
  Action.edits (changes node) (next node)

/-- Declares the local variables that stand as arguments or as items of one. -/
def declareArguments : Clause :=
  editing fun node => node.assigned.map .declare

/-- Declares the local variables that stand as one argument or as its items. -/
def declareArgument (index : Nat) : Clause :=
  editing fun node => (((node.argument? index).map Expr.assigned).getD []).map .declare

/-- Turns the node down if there is a reason to. -/
def rejecting (reason? : Node → Option String) : Clause := fun node next =>
  match reason? node with
  | some reason => .reject reason
  | none => next node

/-- Turns the node down for a reason if a test says so. -/
def rejectIf (test : Node → Bool) (reason : String) : Clause :=
  rejecting fun node => if test node then some reason else none

/-- Takes the type of the node away. -/
def withoutType : Clause := fun node next =>
  next { node with returns := none }

/-- Gives the node the type of a name, or none if the name is unknown. -/
def returning (typeName : String) : Clause := fun node next =>
  .look fun view => next { node with returns := view.types.table.resolve typeName }

/-- Reports something at the place of the node. -/
def reporting (severity : Severity) (code : Code) (message : View → String) : Clause :=
  fun node next =>
    .look fun view => .edit (.report (.atSpan node.span severity code (message view))) (next node)

/-- The value of an argument is a literal number that satisfies a test. -/
def isNumber (index : Nat) (test : Float → Bool) (node : Node) : Bool :=
  ((node.literal? index).bind Value.number?).any test

/-- Has the first captured text parsed as an expression of a type, which becomes one more argument. -/
def parseCapture (typeName : String) : Clause := fun node next =>
  .look fun view =>
    match view.types.table.resolve typeName with
    | none => .reject "no such type"
    | some type =>
      .parse (node.captures.headD "") [type] fun
        | .ok e => next { node with arguments := node.arguments ++ [some e] }
        | .error fault => .reject fault.message

/-- Gives the node the type of a context value. -/
def ofContextValue (name : String) (state : ValueState) (alone : Bool) : Clause := fun node next =>
  .look fun view =>
    match ContextValue.resolve view.contextValues view.enclosing name state alone with
    | .error problem => .reject problem.message
    | .ok value => next { node with returns := some value.type }

/-- The definitions around the line, the number of scopes, the depth and the declared names in one
line. -/
def describeView (view : View) : String :=
  let enclosing := String.intercalate ", " (view.enclosing.map toString)
  let declared := String.intercalate ","
    (view.scopes.flatten.mergeSort fun a b => decide (a ≤ b))
  let scopes := view.scopes.length
  let depth := view.depth
  s!"enclosing=[{enclosing}] scopes={scopes} depth={depth} declared={declared}"

end Clause

end Phrasebook
