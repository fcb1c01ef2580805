import Phrasebook.Proofs.Pattern.Compiled
import Phrasebook.Registry

/-!
# What every registry keeps to

A builder is filled by steps of registration. Whatever the steps were, every definition stands at the place
of its number and all its patterns are sound; so the candidates of the registry that is built from it are
patterns of its definitions, each in the category of its definition.
-/

namespace Phrasebook
open Pattern

/-- A builder that steps of registration lead to, in any order. -/
inductive RegistryBuilder.Reachable : RegistryBuilder → Prop where
  | new : Reachable {}
  | setConfig {b} (config) (h : Reachable b) : Reachable (b.setConfig config)
  | type {b b' spec id} (h : Reachable b) (step : b.registerType spec = .ok (b', id)) : Reachable b'
  | converter {b b' source target convert} (h : Reachable b)
    (step : b.registerConverter source target convert = .ok b') : Reachable b'
  | definition {b b' spec id} (h : Reachable b) (step : b.register spec = .ok (b', id)) :
    Reachable b'
  | contextValue {b b' owner spec} (h : Reachable b)
    (step : b.registerContextValue owner spec = .ok b') : Reachable b'

/-- Definitions that stand at the places of their numbers, with sound patterns. -/
structure Numbered (definitions : List Definition) : Prop where
  id : ∀ (i : Nat) (d : Definition), definitions[i]? = some d → d.id = i
  patterns : ∀ d ∈ definitions, ∀ p ∈ d.patterns, p.Sound

theorem Numbered.snoc {definitions : List Definition} (numbered : Numbered definitions)
    {d : Definition} (id : d.id = definitions.length) (patterns : ∀ p ∈ d.patterns, p.Sound) :
    Numbered (definitions ++ [d]) := by
  refine ⟨fun i d' found => ?_, fun d' among => ?_⟩
  · rw [List.getElem?_append] at found
    split at found
    · exact numbered.id i d' found
    next beyond =>
      obtain ⟨here, rfl⟩ : i - definitions.length = 0 ∧ d = d' := by
        cases h : i - definitions.length <;> simp_all
      omega
  · rcases List.mem_append.1 among with among | same
    · exact numbered.patterns d' among
    · rw [List.mem_singleton.1 same]
      exact patterns

/-- What an `Except` step that succeeds consists of. -/
theorem bind_eq_ok {ε β γ : Type} {x : Except ε β} {f : β → Except ε γ} {c : γ}
    (h : x >>= f = .ok c) : ∃ b, x = .ok b ∧ f b = .ok c := by
  cases x with
  | error => cases h
  | ok b => exact ⟨b, rfl, h⟩

/-- A pattern is what a text compiles to, where type names have some meaning. -/
def Pattern.IsCompiled (p : Pattern) : Prop :=
  ∃ resolve source, Pattern.compile resolve source = .ok p

theorem isCompiled_of_mem_mapM {resolve : String → Option PatternType} {sources : List String}
    {patterns : List Pattern} (h : sources.mapM (Pattern.compile resolve) = .ok patterns) :
    ∀ p ∈ patterns, p.IsCompiled := by
  induction sources generalizing patterns with
  | nil =>
    cases h
    nofun
  | cons source sources ih =>
    rw [List.mapM_cons] at h
    obtain ⟨p, compiled, h⟩ := bind_eq_ok h
    obtain ⟨rest, others, h⟩ := bind_eq_ok h
    cases h
    intro q among
    rcases List.mem_cons.1 among with rfl | among
    · exact ⟨resolve, source, compiled⟩
    · exact ih others q among

/-- All patterns of a list compile to sound ones. -/
theorem mapM_compile_sound {resolve : String → Option PatternType} {sources : List String}
    {patterns : List Pattern} (h : sources.mapM (Pattern.compile resolve) = .ok patterns) :
    ∀ p ∈ patterns, p.Sound := by
  intro p among
  obtain ⟨_, _, compiled⟩ := isCompiled_of_mem_mapM h p among
  exact compile_sound compiled

namespace RegistryBuilder

/-- What registering a definition adds at the end. -/
structure Registered (b b' : RegistryBuilder) (spec : DefinitionSpec) (d : Definition) : Prop where
  definitions : b'.definitions = b.definitions ++ [d]
  types : b'.types = b.types
  config : b'.config = b.config
  contextValues : b'.contextValues = b.contextValues
  id : d.id = b.definitions.length
  name : d.name = spec.name.getD (spec.patterns.headD "")
  category : d.category = spec.category
  decide : d.decide = spec.decide
  patterns : ∀ p ∈ d.patterns, p.Sound

theorem registered {b b' : RegistryBuilder} {spec : DefinitionSpec} {id : Nat}
    (step : b.register spec = .ok (b', id)) : ∃ d, Registered b b' spec d := by
  unfold register at step
  split at step
  · cases step
  next first others written =>
    obtain ⟨patterns, compiled, step⟩ := bind_eq_ok step
    obtain ⟨returns, -, step⟩ := bind_eq_ok step
    obtain ⟨_, -, step⟩ := bind_eq_ok step
    cases step
    exact ⟨_, rfl, rfl, rfl, rfl, rfl, by rw [written]; rfl, rfl, rfl, mapM_compile_sound compiled⟩

/-- Registering a type leaves the definitions alone. -/
theorem registerType_definitions {b b' : RegistryBuilder} {spec : TypeSpec} {id : TypeId}
    (step : b.registerType spec = .ok (b', id)) : b'.definitions = b.definitions := by
  obtain ⟨_, -, step⟩ := bind_eq_ok step
  cases step
  rfl

/-- Registering a type adds an entry for it to the table of types. -/
theorem registerType_entries {b b' : RegistryBuilder} {spec : TypeSpec} {id : TypeId}
    (step : b.registerType spec = .ok (b', id)) :
    ∃ supertype, b'.types.table.entries = b.types.table.entries.push { spec, supertype } := by
  obtain ⟨_, added, step⟩ := bind_eq_ok step
  cases step
  obtain ⟨_, registered, added⟩ := bind_eq_ok added
  cases added
  unfold TypeTable.register at registered
  dsimp only at registered
  split at registered
  · cases registered
  split at registered
  · cases registered
  split at registered
  · cases registered
    exact ⟨none, rfl⟩
  split at registered
  next found _ =>
    cases registered
    exact ⟨some found.type, rfl⟩
  · cases registered

/-- Registering a converter leaves the definitions and the table of types alone. -/
theorem registerConverter_keeps {b b' : RegistryBuilder} {source target : String}
    {convert : Value → Option Value}
    (step : b.registerConverter source target convert = .ok b') :
    b'.definitions = b.definitions ∧ b'.types.table = b.types.table := by
  obtain ⟨_, added, step⟩ := bind_eq_ok step
  cases step
  obtain ⟨_, -, added⟩ := bind_eq_ok added
  obtain ⟨_, -, added⟩ := bind_eq_ok added
  cases added
  exact ⟨rfl, rfl⟩

/-- Registering a value that a definition provides adds the value, and nothing else. -/
theorem registerContextValue_adds {b b' : RegistryBuilder} {owner : Nat}
    {spec : ContextValueSpec} (step : b.registerContextValue owner spec = .ok b') :
    ∃ value, b' = { b with contextValues := b.contextValues ++ [value] } := by
  simp only [registerContextValue, bind, Except.bind, throw, throwThe, MonadExceptOf.throw, pure,
    Except.pure] at step
  split at step
  · cases step
  cases compiled : Pattern.compile b.resolve spec.pattern with
  | error => simp [compiled] at step
  | ok p =>
    simp only [compiled] at step
    split at step
    · cases step
    split at step
    · cases step
    · cases step
      exact ⟨_, rfl⟩

/-- **Every builder that registration leads to has its definitions in order.** -/
theorem Reachable.numbered {b : RegistryBuilder} (reachable : b.Reachable) :
    Numbered b.definitions := by
  induction reachable with
  | new => exact ⟨nofun, nofun⟩
  | setConfig _ _ ih => exact ih
  | type _ step ih =>
    rw [registerType_definitions step]
    exact ih
  | converter _ step ih =>
    rw [(registerConverter_keeps step).1]
    exact ih
  | definition _ step ih =>
    obtain ⟨d, registered⟩ := registered step
    rw [registered.definitions]
    exact ih.snoc registered.id registered.patterns
  | contextValue _ step ih =>
    obtain ⟨value, rfl⟩ := registerContextValue_adds step
    exact ih

end RegistryBuilder

/-- A candidate of a category is a pattern of one of some definitions. -/
structure Candidate.Of (definitions : List Definition) (category : Category) (c : Candidate) :
    Prop where
  category : c.definition.category = category
  definition : definitions[c.definition.id]? = some c.definition
  pattern : c.definition.patterns[c.patternIndex]? = some c.pattern
  sound : c.pattern.Sound

namespace Registry

/-- Every candidate is a pattern of one of the definitions. -/
def Lawful (r : Registry) : Prop :=
  ∀ category, ∀ c ∈ r.candidates category, c.Of r.definitions category

end Registry

namespace RegistryBuilder

/-- The patterns of a category are patterns of its definitions. -/
theorem mem_patternsOf {b : RegistryBuilder} (numbered : Numbered b.definitions)
    {category : Category} {c : Candidate} (h : c ∈ b.patternsOf category) :
    c.Of b.definitions category := by
  simp only [patternsOf, List.mem_flatMap, List.mem_filter, List.mem_map, beq_iff_eq] at h
  obtain ⟨d, ⟨among, rfl⟩, ⟨p, i⟩, inside, rfl⟩ := h
  obtain ⟨at_, found⟩ := List.mem_iff_getElem?.1 among
  have id := numbered.id at_ d found
  have pattern := List.mem_zipIdx_iff_getElem?.1 inside
  refine ⟨rfl, ?_, pattern, numbered.patterns d among p (List.mem_of_getElem? pattern)⟩
  rw [id]
  exact found

/-- Whatever category: the candidates are the patterns in the order of trial. -/
theorem candidates_build (b : RegistryBuilder) (category : Category) :
    b.build.candidates category = (b.patternsOf category).mergeSort Candidate.precedes := by
  cases category <;> rfl

/-- **Every registry that registration leads to is lawful.** -/
theorem Reachable.lawful {b : RegistryBuilder} (reachable : b.Reachable) : b.build.Lawful := by
  intro category c h
  rw [candidates_build, List.mem_mergeSort] at h
  exact mem_patternsOf reachable.numbered h

end RegistryBuilder

end Phrasebook
