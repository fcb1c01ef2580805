import Phrasebook.Source.Fault
import Phrasebook.Text.Words
import Phrasebook.Value

/-!
# The table of types

A type has a name for one value and a name for several, may extend a type registered before it, and
may be universal, which makes every type assignable to it. A name is looked up without regard to
surrounding blanks and letter case, and says by its form whether one value is meant or several.
-/

namespace Phrasebook
open Text

/-- A type by its place in the order of registration. -/
abbrev TypeId := Nat

/-- A type, and whether exactly one value of it is meant. -/
structure PatternType where
  type : TypeId
  single : Bool
deriving DecidableEq, Repr, Inhabited

/-- One value of a type. -/
def PatternType.one (type : TypeId) : PatternType := ⟨type, true⟩

/-- Several values of a type. -/
def PatternType.several (type : TypeId) : PatternType := ⟨type, false⟩

/-- What is registered as a type. -/
structure TypeSpec where
  /-- the name of one value -/
  name : String
  /-- the name of several values -/
  plural : String
  supertype : Option String := none
  universal : Bool := false
  /-- reads a literal of the type -/
  literal : Option (String → Option Value) := none
  /-- shows a value of the type as script text -/
  format : Option (Value → String) := none

namespace TypeSpec

/-- Reads a literal; a type without a reader has none. -/
def read? (s : TypeSpec) (text : String) : Option Value :=
  s.literal.bind fun read => read text

/-- Shows a value. Where the type does not say how, a string is shown without quotes. -/
def render (s : TypeSpec) (v : Value) : String :=
  match s.format, v with
  | some format, v => format v
  | none, .string text => text
  | none, v => v.display

end TypeSpec

/-- A registered type with its supertype looked up. -/
structure TypeEntry where
  spec : TypeSpec
  supertype : Option TypeId

/-- The registered types in order, and what each name means. -/
structure TypeTable where
  entries : Array TypeEntry := #[]
  /-- the newest name first -/
  names : List (String × PatternType) := []

namespace TypeTable

/-- The form in which names are kept. -/
def key (name : String) : String :=
  lowerString (trimString name)

/-- The meaning of a name. -/
def resolve (t : TypeTable) (name : String) : Option PatternType :=
  t.names.lookup (key name)

/-- What is registered under an index. -/
def entry? (t : TypeTable) (id : TypeId) : Option TypeEntry :=
  t.entries[id]?

/-- The supertype of a type; it is registered before the type. -/
def supertype? (t : TypeTable) (id : TypeId) : Option TypeId :=
  (t.entry? id).bind TypeEntry.supertype

/-- The type is reached by going up from supertype to supertype. -/
def isBelow (t : TypeTable) (id ancestor : TypeId) : Bool :=
  match t.supertype? id with
  | none => false
  | some parent =>
    if _earlier : parent < id then parent == ancestor || t.isBelow parent ancestor
    else parent == ancestor
termination_by id

/-- A value of the first type may stand where the second is expected. -/
def isAssignable (t : TypeTable) (source target : TypeId) : Bool :=
  source == target ||
    match t.entry? target with
    | none => false
    | some entry => entry.spec.universal || t.isBelow source target

/-- The first of two names that is taken. -/
def taken? (t : TypeTable) (singular plural : String) : Option String :=
  [singular, plural].find? fun name => (t.names.lookup name).isSome

/-- Adds a type, if its names are free and its supertype is known. -/
def register (t : TypeTable) (spec : TypeSpec) : Except Cause (TypeTable × TypeId) :=
  let singular := key spec.name
  let plural := key spec.plural
  if singular.isEmpty then .error (.config "type name must not be empty")
  else
    match t.taken? singular plural with
    | some name => .error (.duplicateType name)
    | none => do
      let supertype ← match spec.supertype with
        | none => pure none
        | some name =>
          match t.resolve name with
          | some found => pure (some found.type)
          | none => throw (.unknownType name)
      let id := t.entries.size
      let names := (plural, .several id) :: (singular, .one id) :: t.names
      return ({ entries := t.entries.push { spec, supertype }, names }, id)

/-- The type that a name stands for in either form. -/
def typeId (t : TypeTable) (name : String) : Except Cause TypeId :=
  match t.resolve name with
  | some found => .ok found.type
  | none => .error (.unknownType name)

/-- The name of one value of a type; a question mark for an unknown type. -/
def name (t : TypeTable) (id : TypeId) : String :=
  match t.entry? id with
  | some entry => entry.spec.name
  | none => "?"

/-- The name of a type in the form that fits the number of values. -/
def patternTypeName (t : TypeTable) (p : PatternType) : String :=
  match t.entry? p.type with
  | some entry => if p.single then entry.spec.name else entry.spec.plural
  | none => "?"

/-- Every type is assignable to this one. -/
def isUniversal (t : TypeTable) (id : TypeId) : Bool :=
  (t.entry? id).any fun entry => entry.spec.universal

/-- Shows a value as the type says. -/
def render (t : TypeTable) (id : TypeId) (v : Value) : String :=
  match t.entry? id with
  | some entry => entry.spec.render v
  | none => v.display

/-- Reads a literal with the reader of the first type that accepts it and is not universal. -/
def readAny? (text : String) : List TypeEntry → TypeId → Option (TypeId × Value)
  | [], _ => none
  | entry :: rest, id =>
    match if entry.spec.universal then none else entry.spec.read? text with
    | some v => some (id, v)
    | none => readAny? text rest (id + 1)

/-- Reads a literal of a type, and says of which type it is. For a universal type every reader is
tried in the order of registration. -/
def readLiteral (t : TypeTable) (id : TypeId) (text : String) : Except Cause (TypeId × Value) :=
  match t.entry? id with
  | none => .error (.unknownType s!"TypeId({id})")
  | some entry =>
    let found := if entry.spec.universal then readAny? text t.entries.toList 0
      else (entry.spec.read? text).map fun v => (id, v)
    match found with
    | some found => .ok found
    | none => .error (.notLiteral entry.spec.name text)

end TypeTable

end Phrasebook
