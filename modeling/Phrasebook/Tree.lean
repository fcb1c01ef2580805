import Phrasebook.Source.Span
import Phrasebook.Types.Table

/-!
# Syntax trees

A line is read as a node of one of five categories, whose arguments are expressions; an expression is
a literal, a list, a variable, a node of its own, or one of these with converters around it. Every
expression carries the type it has for its surroundings and its place.
-/

namespace Phrasebook

/-- The kinds of syntax. -/
inductive Category where
  /-- the header of a block that starts at the margin -/
  | event
  /-- the header of a block within a block, called a section -/
  | sectionHead
  /-- a statement -/
  | effect
  /-- a check, which may also stand as a statement or for a boolean -/
  | condition
  | expression
deriving DecidableEq, Repr, Inhabited

namespace Category

/-- All categories. -/
def all : List Category := [event, sectionHead, effect, condition, expression]

def name : Category → String
  | event => "event"
  | sectionHead => "section"
  | effect => "effect"
  | condition => "condition"
  | expression => "expression"

/-- A line of this category owns a block. -/
def opensBlock : Category → Bool
  | event | sectionHead => true
  | _ => false

end Category

/-- How the items of a list are joined. -/
inductive Conjunction where
  | and
  | or
deriving DecidableEq, Repr, Inhabited

namespace Conjunction

def name : Conjunction → String
  | and => "and"
  | or => "or"

end Conjunction

mutual

/-- An expression with the type it has where it stands, and its place. -/
inductive Expr where
  | literal (value : Value) (type : PatternType) (span : Span)
  | list (items : List Expr) (conjunction : Conjunction) (type : PatternType) (span : Span)
  /-- a variable by the name between its braces, which is local if it starts with an underscore -/
  | var (name : String) (isLocal : Bool) (type : PatternType) (span : Span)
  | node (node : Node) (type : PatternType) (span : Span)
  /-- an expression with the types that the converters around it lead to -/
  | converted (inner : Expr) (path : List TypeId) (type : PatternType) (span : Span)
deriving Repr, BEq, Inhabited

/-- Text that a pattern matches. -/
structure Node where
  category : Category
  /-- the definition by its place in the order of registration -/
  definition : Nat
  name : String
  /-- which pattern of the definition matched -/
  patternIndex : Nat
  /-- the marks of the branches taken, combined by exclusive or -/
  mark : Int64
  span : Span
  /-- one entry for each placeholder; none where it was left out -/
  arguments : List (Option Expr)
  returns : Option PatternType
  /-- what the regexes of the pattern matched, in order -/
  captures : List String
  /-- the tags of the branches taken, in order -/
  tags : List String
deriving Repr, BEq, Inhabited

end

namespace Expr

/-- The type of the value that an expression stands for. -/
def type : Expr → PatternType
  | literal _ type _ | list _ _ type _ | var _ _ type _ | node _ type _
  | converted _ _ type _ => type

/-- Where an expression was read. -/
def span : Expr → Span
  | literal _ _ span | list _ _ _ span | var _ _ _ span | node _ _ span
  | converted _ _ _ span => span

/-- The value of a literal. -/
def value? : Expr → Option Value
  | literal value _ _ => some value
  | _ => none

mutual

/-- A literal, or a list of nothing but literals. -/
def isLiteral : Expr → Bool
  | literal .. => true
  | list items _ _ _ => allLiteral items
  | var .. | node .. | converted .. => false

/-- All of the expressions are literals. -/
def allLiteral : List Expr → Bool
  | [] => true
  | e :: rest => e.isLiteral && allLiteral rest

end

mutual

/-- The names of the local variables that are assigned to where the expression is: the expression
itself, or items of a list. -/
def assigned : Expr → List String
  | var name isLocal _ _ => if isLocal then [name] else []
  | list items _ _ _ => assignedIn items
  | literal .. | node .. | converted .. => []

/-- The names of the local variables among items. -/
def assignedIn : List Expr → List String
  | [] => []
  | e :: rest => e.assigned ++ assignedIn rest

end

end Expr

mutual

/-- The number of nodes, literals, variables, lists and conversions of an expression. -/
def Expr.size : Expr → Nat
  | .literal .. | .var .. => 1
  | .list items _ _ _ => 1 + sizeOfItems items
  | .node n _ _ => n.size
  | .converted inner _ _ _ => 1 + inner.size

/-- The sizes of expressions added up. -/
def sizeOfItems : List Expr → Nat
  | [] => 0
  | e :: rest => e.size + sizeOfItems rest

/-- The size of a node with its arguments. -/
def Node.size : Node → Nat
  | ⟨_, _, _, _, _, _, arguments, _, _, _⟩ => 1 + sizeOfArguments arguments

/-- The sizes of the arguments that are present added up. -/
def sizeOfArguments : List (Option Expr) → Nat
  | [] => 0
  | none :: rest => sizeOfArguments rest
  | some e :: rest => e.size + sizeOfArguments rest

end

mutual

/-- The places and names at which an expression reads local variables, from left to right. -/
def Expr.localReads : Expr → List (Span × String)
  | .var name isLocal _ span => if isLocal then [(span, name)] else []
  | .list items _ _ _ => readsOfItems items
  | .node n _ _ => n.localReads
  | .converted inner _ _ _ => inner.localReads
  | .literal .. => []

/-- The reads of expressions in order. -/
def readsOfItems : List Expr → List (Span × String)
  | [] => []
  | e :: rest => e.localReads ++ readsOfItems rest

/-- The reads of the arguments of a node. -/
def Node.localReads : Node → List (Span × String)
  | ⟨_, _, _, _, _, _, arguments, _, _, _⟩ => readsOfArguments arguments

/-- The reads of the arguments that are present. -/
def readsOfArguments : List (Option Expr) → List (Span × String)
  | [] => []
  | none :: rest => readsOfArguments rest
  | some e :: rest => e.localReads ++ readsOfArguments rest

end

namespace Node

/-- The argument of a placeholder, if it is present. -/
def argument? (n : Node) (index : Nat) : Option Expr :=
  (n.arguments[index]?).join

/-- The value of an argument that is a literal. -/
def literal? (n : Node) (index : Nat) : Option Value :=
  (n.argument? index).bind Expr.value?

/-- The match gave the node this tag. -/
def hasTag (n : Node) (tag : String) : Bool :=
  n.tags.contains tag

/-- The names of the local variables that stand as arguments or as items of one. -/
def assigned (n : Node) : List String :=
  (n.arguments.filterMap id).flatMap Expr.assigned

end Node

end Phrasebook
