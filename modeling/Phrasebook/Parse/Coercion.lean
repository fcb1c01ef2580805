import Phrasebook.Expect
import Phrasebook.Registry

/-!
# Fitting types

Whether an expression has one of the types that are expected, or can be converted to one. A literal is
converted at once, any other expression by converters around it.
-/

namespace Phrasebook.Parse

/-- An expression of a definition may fit a target. A universal type may still be narrowed when the
definition decides about the node. -/
def mayReturn (types : TypeSystem) (d : Definition) (target : Target) : Bool :=
  match d.returns with
  | none => false
  | some type =>
    types.table.isUniversal type.type ||
      (!(target.single && !type.single) &&
        target.types.any fun t => types.canConvert type.type t.type)

/-- A value of a type as one that is expected: as it is if its type is assignable to one of the
expected, else converted to the first that it can be converted to. -/
def coerceValue? (types : TypeSystem) (value : Value) (actual : TypeId) (target : Target) :
    Option (Value × PatternType) :=
  if target.types.any fun t => types.table.isAssignable actual t.type then
    some (value, ⟨actual, target.single⟩)
  else
    target.types.findSome? fun t =>
      match types.convert value actual t.type with
      | .ok value => some (value, ⟨t.type, target.single⟩)
      | .error _ => none

/-- An expression as one that is expected, with converters around it where its type asks for them. -/
def coerceExpr? (types : TypeSystem) (e : Expr) (target : Target) : Option Expr :=
  if target.types.any fun t => types.table.isAssignable e.type.type t.type then some e
  else
    target.types.findSome? fun t =>
      (types.path? e.type.type t.type).map fun chain =>
        .converted e (types.pathTypes chain) ⟨t.type, e.type.single⟩ e.span

/-- A literal of one of the expected types. -/
def ownLiteral? (types : TypeSystem) (text : String) (target : Target) : Option (Value × PatternType) :=
  target.types.findSome? fun t =>
    match types.table.readLiteral t.type text with
    | .ok (actual, value) => coerceValue? types value actual target
    | .error _ => none

/-- A literal of a type that can be converted to one of the expected. -/
def otherLiteral? (types : TypeSystem) (text : String) (target : Target) :
    Option (Value × PatternType) :=
  types.table.entries.toList.zipIdx.findSome? fun (entry, id) =>
    if target.types.any fun t => types.canConvert id t.type then
      (entry.spec.read? text).bind fun value => coerceValue? types value id target
    else none

/-- A literal that fits a target. -/
def literal? (types : TypeSystem) (text : String) (target : Target) : Option (Value × PatternType) :=
  (ownLiteral? types text target).or (otherLiteral? types text target)

end Phrasebook.Parse
