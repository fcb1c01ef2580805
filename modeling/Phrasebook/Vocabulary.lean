import Phrasebook.Registry

/-!
# Vocabularies

A vocabulary is a list of types, converters and definitions that belong together. It is registered
entry by entry; an entry that fails ends the registration, and what came before it stays.
-/

namespace Phrasebook

/-- One entry of a vocabulary. -/
inductive Entry where
  | type (spec : TypeSpec)
  | converter (source target : String) (convert : Value → Option Value)
  /-- a definition with the values that it provides to the lines of its block -/
  | definition (spec : DefinitionSpec) (values : List ContextValueSpec := [])

namespace RegistryBuilder

/-- A builder after a step of registration, and why the step failed if it did. -/
abbrev Outcome := RegistryBuilder × Option Cause

/-- The outcome of a step that changes nothing if it fails. -/
def outcome (b : RegistryBuilder) : Except Cause RegistryBuilder → Outcome
  | .ok b => (b, none)
  | .error cause => (b, some cause)

/-- Adds the values that a definition provides. -/
def addContextValues (b : RegistryBuilder) (owner : Nat) : List ContextValueSpec → Outcome
  | [] => (b, none)
  | spec :: rest =>
    match b.registerContextValue owner spec with
    | .ok b => b.addContextValues owner rest
    | .error cause => (b, some cause)

/-- Adds one entry. -/
def add (b : RegistryBuilder) : Entry → Outcome
  | .type spec => b.outcome ((b.registerType spec).map Prod.fst)
  | .converter source target convert => b.outcome (b.registerConverter source target convert)
  | .definition spec values =>
    match b.register spec with
    | .ok (b, id) => b.addContextValues id values
    | .error cause => (b, some cause)

/-- Adds the entries of a vocabulary up to the first that fails. -/
def addAll (b : RegistryBuilder) : List Entry → Outcome
  | [] => (b, none)
  | entry :: rest =>
    match b.add entry with
    | (b, none) => b.addAll rest
    | (b, some cause) => (b, some cause)

end RegistryBuilder

/-- The registry of one vocabulary. -/
def Registry.ofVocabulary (config : Config) (entries : List Entry) : Except Cause Registry :=
  match (RegistryBuilder.withConfig config).addAll entries with
  | (b, none) => .ok b.build
  | (_, some cause) => .error cause

end Phrasebook
