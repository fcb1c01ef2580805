import Phrasebook.Proofs.Registry
import Phrasebook.Vocabulary

/-!
# What vocabularies add

The entries of a vocabulary are steps of registration, so a builder that they are added to stays reachable,
also where one of them fails; and every definition of it decides as the entry says that it came from.
-/

namespace Phrasebook

/-- The decision of an entry, if it is a definition, satisfies a condition. -/
def Entry.Decides (P : (Node → Action) → Prop) : Entry → Prop
  | .definition spec _ => P spec.decide
  | .type _ | .converter .. => True

/-- A definition is the one that a spec describes. -/
structure Definition.Follows (d : Definition) (spec : DefinitionSpec) : Prop where
  name : d.name = spec.name.getD (spec.patterns.headD "")
  category : d.category = spec.category
  decide : d.decide = spec.decide

namespace RegistryBuilder

theorem addContextValues_reachable {b : RegistryBuilder} (owner : Nat)
    (values : List ContextValueSpec) (h : b.Reachable) :
    (b.addContextValues owner values).1.Reachable := by
  induction values generalizing b with
  | nil => exact h
  | cons spec rest ih =>
    rw [addContextValues]
    split
    next step => exact ih (h.contextValue step)
    · exact h

theorem addContextValues_adds (b : RegistryBuilder) (owner : Nat) (values : List ContextValueSpec) :
    ∃ contextValues, (b.addContextValues owner values).1 = { b with contextValues } := by
  induction values generalizing b with
  | nil => exact ⟨b.contextValues, rfl⟩
  | cons spec rest ih =>
    rw [addContextValues]
    split
    next b' step =>
      obtain ⟨value, rfl⟩ := registerContextValue_adds step
      exact ih _
    · exact ⟨b.contextValues, rfl⟩

/-- One entry is one step or several. -/
theorem add_reachable {b : RegistryBuilder} (entry : Entry) (h : b.Reachable) :
    (b.add entry).1.Reachable := by
  cases entry with
  | type spec =>
    rw [add]
    cases step : b.registerType spec with
    | error => exact h
    | ok result => exact h.type step
  | converter source target convert =>
    rw [add]
    cases step : b.registerConverter source target convert with
    | error => exact h
    | ok result => exact h.converter step
  | definition spec values =>
    rw [add]
    cases step : b.register spec with
    | error => exact h
    | ok result => exact addContextValues_reachable _ _ (h.definition step)

/-- **A vocabulary leads to a reachable builder**, even if it is not added to the end. -/
theorem addAll_reachable {b : RegistryBuilder} (entries : List Entry) (h : b.Reachable) :
    (b.addAll entries).1.Reachable := by
  induction entries generalizing b with
  | nil => exact h
  | cons entry rest ih =>
    have step := add_reachable entry h
    rw [addAll]
    split
    next b' found =>
      rw [found] at step
      exact ih step
    next b' cause found =>
      rw [found] at step
      exact step

/-- An entry keeps the settings. -/
theorem add_config (b : RegistryBuilder) (entry : Entry) : (b.add entry).1.config = b.config := by
  cases entry with
  | type spec =>
    rw [add]
    cases step : b.registerType spec with
    | error => rfl
    | ok result =>
      obtain ⟨_, -, step⟩ := bind_eq_ok step
      cases step
      rfl
  | converter source target convert =>
    rw [add]
    cases step : b.registerConverter source target convert with
    | error => rfl
    | ok result =>
      obtain ⟨_, -, step⟩ := bind_eq_ok step
      cases step
      rfl
  | definition spec values =>
    rw [add]
    cases step : b.register spec with
    | error => rfl
    | ok result =>
      obtain ⟨d, registered⟩ := registered step
      obtain ⟨contextValues, added⟩ := addContextValues_adds result.1 result.2 values
      dsimp only
      rw [added]
      exact registered.config

/-- Whatever is added keeps the settings. -/
theorem addAll_config (b : RegistryBuilder) (entries : List Entry) : (b.addAll entries).1.config = b.config := by
  induction entries generalizing b with
  | nil => rfl
  | cons entry rest ih =>
    have first := add_config b entry
    rw [addAll]
    split
    next b' found =>
      rw [found] at first
      exact (ih b').trans first
    next b' cause found =>
      rw [found] at first
      exact first

/-- Whatever a builder has that another had not comes from one of some entries. -/
structure Extends (b : RegistryBuilder) (entries : List Entry) (b' : RegistryBuilder) : Prop where
  definitions : ∀ d ∈ b'.definitions, d ∈ b.definitions ∨
    ∃ spec values, .definition spec values ∈ entries ∧ d.Follows spec
  types : ∀ type ∈ b'.types.table.entries, type ∈ b.types.table.entries ∨ .type type.spec ∈ entries

theorem Extends.refl (b : RegistryBuilder) (entries : List Entry) : b.Extends entries b :=
  ⟨fun _ => .inl, fun _ => .inl⟩

theorem Extends.cons {b b' b'' : RegistryBuilder} {entry : Entry} {entries : List Entry}
    (first : b.Extends [entry] b') (rest : b'.Extends entries b'') : b.Extends (entry :: entries) b'' := by
  constructor
  · intro d mem
    rcases rest.definitions d mem with mem | ⟨spec, values, mem, follows⟩
    · rcases first.definitions d mem with mem | ⟨spec, values, mem, follows⟩
      · exact .inl mem
      · exact .inr ⟨spec, values, List.mem_cons.2 (.inl (List.mem_singleton.1 mem)), follows⟩
    · exact .inr ⟨spec, values, List.mem_cons_of_mem entry mem, follows⟩
  · intro type mem
    rcases rest.types type mem with mem | mem
    · rcases first.types type mem with mem | mem
      · exact .inl mem
      · exact .inr (List.mem_cons.2 (.inl (List.mem_singleton.1 mem)))
    · exact .inr (List.mem_cons_of_mem entry mem)

/-- One entry adds at most what it says. -/
theorem add_extends (b : RegistryBuilder) (entry : Entry) : b.Extends [entry] (b.add entry).1 := by
  cases entry with
  | type spec =>
    rw [add]
    cases step : b.registerType spec with
    | error => exact .refl b _
    | ok result =>
      obtain ⟨supertype, added⟩ := registerType_entries step
      constructor
      · intro d mem
        refine .inl ?_
        rwa [← registerType_definitions step]
      · intro type mem
        have mem : type ∈ result.1.types.table.entries := mem
        rw [added] at mem
        rcases Array.mem_push.1 mem with mem | rfl
        · exact .inl mem
        · exact .inr List.mem_cons_self
  | converter source target convert =>
    rw [add]
    cases step : b.registerConverter source target convert with
    | error => exact .refl b _
    | ok b' =>
      obtain ⟨definitions, table⟩ := registerConverter_keeps step
      constructor
      · intro d mem
        exact .inl (definitions ▸ mem)
      · intro type mem
        exact .inl (table ▸ mem)
  | definition spec values =>
    rw [add]
    cases step : b.register spec with
    | error => exact .refl b _
    | ok result =>
      obtain ⟨d, registered⟩ := registered step
      obtain ⟨contextValues, same⟩ := addContextValues_adds result.1 result.2 values
      dsimp only
      rw [same]
      constructor
      · intro d' mem
        have mem : d' ∈ result.1.definitions := mem
        rw [registered.definitions] at mem
        rcases List.mem_append.1 mem with mem | mem
        · exact .inl mem
        · rw [List.mem_singleton.1 mem]
          exact .inr ⟨spec, values, List.mem_cons_self, registered.name, registered.category, registered.decide⟩
      · intro type mem
        exact .inl (registered.types ▸ mem)

/-- **A vocabulary adds at most what its entries say.** -/
theorem addAll_extends (b : RegistryBuilder) (entries : List Entry) :
    b.Extends entries (b.addAll entries).1 := by
  induction entries generalizing b with
  | nil => exact .refl b []
  | cons entry rest ih =>
    have first := add_extends b entry
    rw [addAll]
    split
    next b' found =>
      rw [found] at first
      exact first.cons (ih b')
    next b' cause found =>
      rw [found] at first
      exact first.cons (.refl b' rest)

/-- Every definition decides as the entry says that it came from. -/
theorem addAll_decides {P : (Node → Action) → Prop} {b : RegistryBuilder} {entries : List Entry}
    (decides : ∀ entry ∈ entries, entry.Decides P) (h : ∀ d ∈ b.definitions, P d.decide) :
    ∀ d ∈ (b.addAll entries).1.definitions, P d.decide := by
  intro d mem
  rcases (addAll_extends b entries).definitions d mem with mem | ⟨spec, values, mem, follows⟩
  · exact h d mem
  · rw [follows.decide]
    exact decides _ mem

/-- Every candidate of the registry of a vocabulary decides as the entry says that it came from. -/
theorem candidates_decides {P : (Node → Action) → Prop} {config : Config} {entries : List Entry}
    (decides : ∀ entry ∈ entries, entry.Decides P) (category : Category) :
    ∀ x ∈ ((withConfig config).addAll entries).1.build.candidates category, P x.definition.decide := by
  have reachable := addAll_reachable entries (.setConfig config .new)
  intro x mem
  have registered := List.mem_of_getElem? (reachable.lawful category x mem).definition
  exact addAll_decides decides (fun _ mem => (List.not_mem_nil mem).elim) _ registered

/-- A vocabulary that is added to its end has a registry. -/
theorem ofVocabulary_complete {config : Config} {entries : List Entry}
    (complete : ((withConfig config).addAll entries).2 = none) :
    Registry.ofVocabulary config entries = .ok ((withConfig config).addAll entries).1.build := by
  unfold Registry.ofVocabulary
  split
  next b found => rw [found]
  next b cause found =>
    rw [found] at complete
    cases complete

/-- The registry of a vocabulary is built by a builder that its entries lead to. -/
theorem builder_of_ofVocabulary {config : Config} {entries : List Entry} {r : Registry}
    (registered : Registry.ofVocabulary config entries = .ok r) :
    ∃ b : RegistryBuilder, r = b.build ∧ b.Reachable ∧ b.config = config ∧
      (withConfig config).Extends entries b := by
  unfold Registry.ofVocabulary at registered
  have start : (withConfig config).Reachable := .setConfig config .new
  have reachable := addAll_reachable entries start
  have settings := addAll_config (withConfig config) entries
  have described := addAll_extends (withConfig config) entries
  split at registered
  next b found =>
    cases registered
    rw [found] at reachable settings described
    exact ⟨b, rfl, reachable, settings, described⟩
  next => cases registered

end RegistryBuilder

end Phrasebook
