import Phrasebook.Action

/-!
# The registry of syntax

Types, converters, definitions and context values are registered one after the other; then the registry
is built, in which the patterns of each category stand in the order in which they are tried: by
priority, then by the number of words they require, then in the order of registration.
-/

namespace Phrasebook

/-- What is registered as a definition. -/
structure DefinitionSpec where
  category : Category
  /-- the name that is shown; the first pattern if there is none -/
  name : Option String := none
  /-- the patterns, each of which may match -/
  patterns : List String
  priority : Int := defaultPriority
  /-- the name of the type of an expression or condition -/
  returns : Option String := none
  decide : Node → Action := Action.accept

/-- A registered definition. -/
structure Definition where
  /-- its place in the order of registration -/
  id : Nat
  name : String
  category : Category
  patterns : List Pattern
  priority : Int
  returns : Option PatternType
  decide : Node → Action
deriving Inhabited

/-- One pattern of a definition. -/
structure Candidate where
  definition : Definition
  patternIndex : Nat
  pattern : Pattern
deriving Inhabited

/-- Two patterns of one category and priority that cannot be told apart. -/
structure Ambiguity where
  category : Category
  /-- the later pattern -/
  pattern : String
  /-- the earlier pattern, which wins -/
  existing : String
  priority : Int
deriving DecidableEq, Repr, Inhabited

/-- What is registered as a context value. -/
structure ContextValueSpec where
  pattern : String
  returns : String
  state : ValueState := .present
  usage : ValueUsage := .either

/-- The registry while it is being filled. -/
structure RegistryBuilder where
  types : TypeBuilder := {}
  definitions : List Definition := []
  contextValues : List ContextValue := []
  ambiguities : List Ambiguity := []
  config : Config := {}

namespace RegistryBuilder

/-- Changes the settings. They hold for what is registered from now on. -/
def setConfig (b : RegistryBuilder) (config : Config) : RegistryBuilder :=
  { b with config, types := { b.types with maxConversionDepth := config.maxConversionDepth } }

/-- A builder with nothing registered. -/
def withConfig (config : Config) : RegistryBuilder :=
  setConfig {} config

/-- Adds a type, and answers its place in the type table. -/
def registerType (b : RegistryBuilder) (spec : TypeSpec) : Except Cause (RegistryBuilder × TypeId) := do
  let (types, id) ← b.types.registerType spec
  return ({ b with types }, id)

/-- Adds a converter between two types. -/
def registerConverter (b : RegistryBuilder) (source target : String)
    (convert : Value → Option Value) : Except Cause RegistryBuilder := do
  return { b with types := ← b.types.registerConverter source target convert }

/-- What a type name means so far. -/
def resolve (b : RegistryBuilder) (name : String) : Option PatternType :=
  b.types.table.resolve name

/-- The type of a definition: the one it names, and for a condition that names none the booleans. -/
def returnType (b : RegistryBuilder) (spec : DefinitionSpec) : Except Cause (Option PatternType) :=
  match spec.returns, spec.category with
  | some name, _ =>
    match b.resolve name with
    | some type => .ok (some type)
    | none => .error (.unknownType name)
  | none, .condition => .ok (b.resolve "boolean")
  | none, .expression =>
    let pattern := spec.patterns.headD ""
    .error (.config s!"expression '{pattern}' has no return type")
  | none, _ => .ok none

/-- The first registered pattern of a category and priority that cannot be told apart from one. -/
def rival? (b : RegistryBuilder) (category : Category) (priority : Int) (p : Pattern) :
    Option Pattern :=
  ((b.definitions.filter fun d => d.category == category && d.priority == priority).flatMap
    Definition.patterns).find? fun q => q.normalized == p.normalized

/-- The ambiguities that a pattern would bring. -/
def ambiguitiesOf (b : RegistryBuilder) (category : Category) (priority : Int) (p : Pattern) :
    List Ambiguity :=
  match b.rival? category priority p with
  | none => []
  | some rival => [{ category, pattern := p.source, existing := rival.source, priority }]

/-- Refuses ambiguities where the settings do not allow them. -/
def permit (b : RegistryBuilder) : List Ambiguity → Except Cause Unit
  | [] => .ok ()
  | a :: _ =>
    match b.config.ambiguity with
    | .warn => .ok ()
    | .deny => .error (.ambiguous a.category.name a.pattern a.existing)

/-- Adds a definition. -/
def register (b : RegistryBuilder) (spec : DefinitionSpec) : Except Cause (RegistryBuilder × Nat) :=
  match spec.patterns with
  | [] => .error (.config "syntax registered without a pattern")
  | first :: _ => do
    let patterns ← spec.patterns.mapM (Pattern.compile b.resolve)
    let returns ← b.returnType spec
    let ambiguities := patterns.flatMap (b.ambiguitiesOf spec.category spec.priority)
    b.permit ambiguities
    let id := b.definitions.length
    let definition : Definition :=
      { id, name := spec.name.getD first, category := spec.category, patterns,
        priority := spec.priority, returns, decide := spec.decide }
    return ({ b with definitions := b.definitions ++ [definition],
                     ambiguities := b.ambiguities ++ ambiguities }, id)

/-- Adds a value that a definition provides to the lines of its block. -/
def registerContextValue (b : RegistryBuilder) (owner : Nat) (spec : ContextValueSpec) :
    Except Cause RegistryBuilder := do
  let pattern := spec.pattern
  if !(b.definitions[owner]?).any fun d => d.category.opensBlock then
    throw (.config s!"context value '{pattern}' needs an event or section")
  let compiled ← Pattern.compile b.resolve spec.pattern
  if !compiled.placeholders.isEmpty then
    throw (.config s!"context value '{pattern}' cannot have placeholders")
  match b.resolve spec.returns with
  | none => throw (.unknownType spec.returns)
  | some type =>
    let value : ContextValue :=
      { owner, pattern := compiled, type, state := spec.state, usage := spec.usage }
    return { b with contextValues := b.contextValues ++ [value] }

/-- The patterns of a category in the order of registration. -/
def patternsOf (b : RegistryBuilder) (category : Category) : List Candidate :=
  (b.definitions.filter fun d => d.category == category).flatMap fun definition =>
    definition.patterns.zipIdx.map fun (pattern, patternIndex) =>
      { definition, patternIndex, pattern }

end RegistryBuilder

/-- One candidate may stand before another: its priority is higher, or the same with at least as many
required words. -/
def Candidate.precedes (a b : Candidate) : Bool :=
  b.definition.priority < a.definition.priority ||
    (a.definition.priority == b.definition.priority &&
      b.pattern.specificity ≤ a.pattern.specificity)

/-- The filled registry. -/
structure Registry where
  types : TypeSystem
  definitions : List Definition
  /-- the patterns of a category in the order in which they are tried -/
  candidates : Category → List Candidate
  contextValues : List ContextValue
  ambiguities : List Ambiguity
  config : Config

/-- Ends the registration. -/
def RegistryBuilder.build (b : RegistryBuilder) : Registry :=
  let order (category : Category) := (b.patternsOf category).mergeSort Candidate.precedes
  let events := order .event
  let sections := order .sectionHead
  let effects := order .effect
  let conditions := order .condition
  let expressions := order .expression
  { types := b.types.build, definitions := b.definitions, contextValues := b.contextValues,
    ambiguities := b.ambiguities, config := b.config,
    candidates := fun
      | .event => events
      | .sectionHead => sections
      | .effect => effects
      | .condition => conditions
      | .expression => expressions }

namespace Registry

/-- The state of a parse before its first line. -/
def newContext (r : Registry) : Context where
  maxDepth := r.config.maxDepth

/-- What a decision sees in a state. -/
def view (r : Registry) (c : Context) : View where
  source := c.source
  line := c.line
  column := c.column
  scopes := c.scopes
  depth := c.depth
  enclosing := c.enclosing
  cancelled := c.cancellation.isSet
  types := r.types
  contextValues := r.contextValues

end Registry

end Phrasebook
