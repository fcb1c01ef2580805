import Phrasebook.Types.Table

/-!
# Converters and chains of them

A converter turns values of one type into values of another. A value that is not assignable to a type
may still be converted to it by a chain of converters; the shortest chain is taken, and of those the
one whose converters were registered first. The search goes breadth first from each type.
-/

namespace Phrasebook

/-- A registered way from one type to another. A value may have no counterpart in the other type. -/
structure Converter where
  source : TypeId
  target : TypeId
  convert : Value → Option Value

/-- A type that was reached, and the converters on the way to it by their places. -/
structure Reached where
  type : TypeId
  chain : List Nat
deriving DecidableEq, Repr

namespace Conversion

/-- The types that converters lead to from one that was reached, leaving out those seen before. -/
def stepFrom (assignable : TypeId → TypeId → Bool) (at_ : Reached) :
    List (Converter × Nat) → List TypeId → List Reached
  | [], _ => []
  | (c, i) :: rest, seen =>
    if assignable at_.type c.source && !seen.contains c.target then
      ⟨c.target, at_.chain ++ [i]⟩ :: stepFrom assignable at_ rest (c.target :: seen)
    else stepFrom assignable at_ rest seen

/-- The types that converters lead to from those of the last round, in the order of discovery. -/
def nextRound (assignable : TypeId → TypeId → Bool) (converters : List (Converter × Nat)) :
    List Reached → List TypeId → List Reached
  | [], _ => []
  | at_ :: rest, seen =>
    let found := stepFrom assignable at_ converters seen
    found ++ nextRound assignable converters rest (found.map Reached.type ++ seen)

/-- All types reached in at most `rounds` more rounds, in the order of discovery. -/
def rounds (assignable : TypeId → TypeId → Bool) (converters : List (Converter × Nat)) :
    Nat → List Reached → List TypeId → List Reached
  | 0, _, _ => []
  | n + 1, last, seen =>
    match nextRound assignable converters last seen with
    | [] => []
    | found => found ++ rounds assignable converters n found (found.map Reached.type ++ seen)

/-- All types reached from one by chains of at most `limit` converters. -/
def reachable (assignable : TypeId → TypeId → Bool) (converters : List Converter) (limit : Nat)
    (source : TypeId) : List Reached :=
  rounds assignable converters.zipIdx limit [⟨source, []⟩] [source]

end Conversion

/-- The types and converters while they are being registered. -/
structure TypeBuilder where
  table : TypeTable := {}
  converters : List Converter := []
  maxConversionDepth : Nat := 4

namespace TypeBuilder

/-- Adds a type. -/
def registerType (b : TypeBuilder) (spec : TypeSpec) : Except Cause (TypeBuilder × TypeId) := do
  let (table, id) ← b.table.register spec
  return ({ b with table }, id)

/-- Adds a converter between two types given by their names. -/
def registerConverter (b : TypeBuilder) (source target : String) (convert : Value → Option Value) :
    Except Cause TypeBuilder := do
  let source ← b.table.typeId source
  let target ← b.table.typeId target
  return { b with converters := b.converters ++ [{ source, target, convert }] }

end TypeBuilder

/-- The registered types and converters with all chains looked up. -/
structure TypeSystem where
  table : TypeTable
  converters : List Converter
  maxConversionDepth : Nat
  /-- for each type the types reached from it, in the order of discovery -/
  reached : Array (List Reached)

/-- Ends the registration of types. -/
def TypeBuilder.build (b : TypeBuilder) : TypeSystem where
  table := b.table
  converters := b.converters
  maxConversionDepth := b.maxConversionDepth
  reached := (Array.range b.table.entries.size).map fun source =>
    Conversion.reachable b.table.isAssignable b.converters b.maxConversionDepth source

namespace TypeSystem

/-- The chain from one type to another that is not assignable without one. -/
def path? (s : TypeSystem) (source target : TypeId) : Option (List Nat) :=
  if s.table.isAssignable source target || s.table.entries.size ≤ target then none
  else
    match s.reached[source]? with
    | none => none
    | some reached =>
      (reached.find? fun r => s.table.isAssignable r.type target).map Reached.chain

/-- The types that the steps of a chain lead to. -/
def pathTypes (s : TypeSystem) (chain : List Nat) : List TypeId :=
  chain.filterMap fun i => (s.converters[i]?).map Converter.target

/-- A value of the first type can be had as one of the second, with or without a chain. -/
def canConvert (s : TypeSystem) (source target : TypeId) : Bool :=
  s.table.isAssignable source target || (s.path? source target).isSome

/-- Applies the converters of a chain in order. -/
def applyChain (s : TypeSystem) : List Nat → Value → Option Value
  | [], v => some v
  | i :: rest, v =>
    match s.converters[i]? with
    | none => none
    | some c => (c.convert v).bind (s.applyChain rest)

/-- Turns a value of one type into one of another. -/
def convert (s : TypeSystem) (v : Value) (source target : TypeId) : Except Cause Value :=
  if s.table.isAssignable source target then .ok v
  else
    match (s.path? source target).bind fun chain => s.applyChain chain v with
    | some v => .ok v
    | none => .error (.noConversion (s.table.name source) (s.table.name target))

end TypeSystem

end Phrasebook
