import Phrasebook.Registry

/-!
# Calls on a builder

A builder is filled in place by calls, one after the other. A call looks names up, notes ambiguities pattern by
pattern and adds the names of a type one at a time; what it has changed when it comes upon a problem, stays
changed.
-/

namespace Phrasebook

/-- Work on a builder in place, which may end with a cause. -/
abbrev Registering := ExceptT Cause (StateM RegistryBuilder)

namespace Registering

/-- Changes the types and converters. -/
def onTypes (f : TypeBuilder → TypeBuilder) : Registering Unit :=
  modify fun b => { b with types := f b.types }

/-- Requires names to be free, one after the other. -/
def requireFree : List String → Registering Unit
  | [] => pure ()
  | name :: rest => do
    if ((← get).types.table.names.lookup name).isSome then throw (.duplicateType name)
    requireFree rest

/-- The type that a name stands for in either form. -/
def typeNamed (name : String) : Registering TypeId := do
  match (← get).resolve name with
  | some found => pure found.type
  | none => throw (.unknownType name)

/-- The supertype that a type names, if it names one. -/
def supertypeOf (spec : TypeSpec) : Registering (Option TypeId) :=
  match spec.supertype with
  | none => pure none
  | some name => some <$> typeNamed name

/-- Gives a name a meaning. -/
def addName (name : String) (type : PatternType) : Registering Unit :=
  onTypes fun t => { t with table := { t.table with names := (name, type) :: t.table.names } }

/-- Adds a type: first its two names, then its entry. -/
def addType (spec : TypeSpec) : Registering TypeId := do
  let singular := TypeTable.key spec.name
  let plural := TypeTable.key spec.plural
  if singular.isEmpty then throw (.config "type name must not be empty")
  requireFree [singular, plural]
  let supertype ← supertypeOf spec
  let id := (← get).types.table.entries.size
  addName singular (.one id)
  addName plural (.several id)
  onTypes fun t => { t with table := { t.table with entries := t.table.entries.push { spec, supertype } } }
  return id

/-- Adds a converter between two types. -/
def addConverter (source target : String) (convert : Value → Option Value) : Registering Unit := do
  let source ← typeNamed source
  let target ← typeNamed target
  onTypes fun t => { t with converters := t.converters ++ [{ source, target, convert }] }

/-- Looks for a pattern registered before that cannot be told apart from one. By the settings it is noted, or the
call fails. -/
def checkPattern (category : Category) (priority : Int) (p : Pattern) : Registering Unit := do
  let b ← get
  match b.rival? category priority p with
  | none => pure ()
  | some rival =>
    match b.config.ambiguity with
    | .deny => throw (.ambiguous category.name p.source rival.source)
    | .warn =>
      let ambiguity : Ambiguity := { category, pattern := p.source, existing := rival.source, priority }
      set { b with ambiguities := b.ambiguities ++ [ambiguity] }

/-- Checks patterns one after the other. -/
def checkPatterns (category : Category) (priority : Int) : List Pattern → Registering Unit
  | [] => pure ()
  | p :: rest => do
    checkPattern category priority p
    checkPatterns category priority rest

/-- Adds a definition, and answers its number. -/
def addDefinition (spec : DefinitionSpec) : Registering Nat :=
  match spec.patterns with
  | [] => throw (.config "syntax registered without a pattern")
  | first :: _ => do
    let b ← get
    let patterns ← (spec.patterns.mapM (Pattern.compile b.resolve) : Except Cause (List Pattern))
    let returns ← b.returnType spec
    checkPatterns spec.category spec.priority patterns
    let b ← get
    let id := b.definitions.length
    let definition : Definition :=
      { id, name := spec.name.getD first, category := spec.category, patterns,
        priority := spec.priority, returns, decide := spec.decide }
    set { b with definitions := b.definitions ++ [definition] }
    return id

/-- Adds a value that a definition provides to the lines of its block. -/
def addContextValue (owner : Nat) (spec : ContextValueSpec) : Registering Unit := do
  let b ← get
  let pattern := spec.pattern
  if !(b.definitions[owner]?).any fun d => d.category.opensBlock then
    throw (.config s!"context value '{pattern}' needs an event or section")
  let compiled ← Pattern.compile b.resolve spec.pattern
  if !compiled.placeholders.isEmpty then
    throw (.config s!"context value '{pattern}' cannot have placeholders")
  match b.resolve spec.returns with
  | none => throw (.unknownType spec.returns)
  | some type =>
    let value : ContextValue :=
      { owner, pattern := compiled, type, state := spec.state, usage := spec.usage }
    set { b with contextValues := b.contextValues ++ [value] }

end Registering

/-- A call on a builder. -/
inductive Registration where
  | type (spec : TypeSpec)
  | converter (source target : String) (convert : Value → Option Value)
  | definition (spec : DefinitionSpec)
  | contextValue (owner : Nat) (spec : ContextValueSpec)
  | settings (config : Config)

/-- What a call that succeeds answers. -/
inductive Registration.Answer where
  | type (id : TypeId)
  | definition (id : Nat)
  | done
deriving DecidableEq, Repr

namespace Registration

/-- The work of a call. -/
def work : Registration → Registering Answer
  | type spec => .type <$> Registering.addType spec
  | converter source target convert => do
    Registering.addConverter source target convert
    return .done
  | definition spec => .definition <$> Registering.addDefinition spec
  | contextValue owner spec => do
    Registering.addContextValue owner spec
    return .done
  | settings config => do
    modify fun b => b.setConfig config
    return .done

/-- The answer of a call and the builder after it, whether it succeeds or not. -/
def perform (call : Registration) (b : RegistryBuilder) : Except Cause Answer × RegistryBuilder :=
  call.work.run.run b

end Registration

/-- The builder after some calls, of which any may fail. -/
def RegistryBuilder.after (b : RegistryBuilder) (calls : List Registration) : RegistryBuilder :=
  calls.foldl (fun b call => (call.perform b).2) b

end Phrasebook
