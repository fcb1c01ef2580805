import Mathlib.Data.List.Forall2
import Mathlib.Data.List.Nodup
import Mathlib.Logic.Equiv.Basic
import Phrasebook.Proofs.Parse.Translation
import Phrasebook.Proofs.Registry.Order
import Phrasebook.Proofs.Vocabulary

/-!
# Registering in another order

A definition that is registered at another place gets another number, and decisions, blocks and context values
that speak of it have to speak of the new number. `RegistryBuilder.Reordered` says that two builders differ in
nothing else; it holds when the definitions of a vocabulary are added in another order.
-/

namespace Phrasebook

/-- Definitions under other numbers. -/
def Translation.renumbering (ρ : Equiv.Perm Nat) : Translation where
  definition := ρ

/-- Two decisions see the same, but for the numbers of the definitions. The values that a definition provides
come in the same order. -/
structure View.Renumbered (ρ : Equiv.Perm Nat) (v v' : View) : Prop where
  source : v'.source = v.source
  line : v'.line = v.line
  column : v'.column = v.column
  scopes : v'.scopes = v.scopes
  depth : v'.depth = v.depth
  enclosing : v'.enclosing = v.enclosing.map ρ
  cancelled : v'.cancelled = v.cancelled
  types : v'.types = v.types
  contextValues (owner : Nat) : v'.contextValues.filter (fun value => value.owner == ρ owner) =
    (v.contextValues.filter fun value => value.owner == owner).map fun value =>
      { value with owner := ρ value.owner }

/-- Two parses whose definitions have other numbers. -/
def Correspondence.renumbering (ρ : Equiv.Perm Nat) : Correspondence where
  toTranslation := .renumbering ρ
  views := View.Renumbered ρ
  reports := Eq

/-- The same definition under another number. Decisions may speak of numbers, so they do the same up to the
renumbering. -/
structure Definition.Renumbered (ρ : Equiv.Perm Nat) (d d' : Definition) : Prop where
  id : d'.id = ρ d.id
  name : d'.name = d.name
  category : d'.category = d.category
  patterns : d'.patterns = d.patterns
  priority : d'.priority = d.priority
  returns : d'.returns = d.returns
  decide (node : Node) :
    (d.decide node).Corresponds (.renumbering ρ) (d'.decide (node.translate (.renumbering ρ)))

namespace RegistryBuilder

/-- Two builders have the same settings, types and converters, and the same definitions with the same values,
but the definition at one place of the first stands at another place of the second. -/
structure Reordered (ρ : Equiv.Perm Nat) (b b' : RegistryBuilder) : Prop where
  types : b'.types = b.types
  config : b'.config = b.config
  definitions (i : Nat) : Option.Rel (Definition.Renumbered ρ) b.definitions[i]? b'.definitions[ρ i]?
  contextValues (owner : Nat) : b'.contextValues.filter (fun value => value.owner == ρ owner) =
    (b.contextValues.filter fun value => value.owner == owner).map fun value =>
      { value with owner := ρ value.owner }

end RegistryBuilder

namespace RegistryBuilder.Reordered

variable {ρ : Equiv.Perm Nat} {b b' : RegistryBuilder} (reordered : b.Reordered ρ b')

include reordered

/-- A place of the first builder holds a definition if the place that it is moved to does. -/
theorem lt_length_iff (i : Nat) : ρ i < b'.definitions.length ↔ i < b.definitions.length := by
  have related := reordered.definitions i
  rw [← not_iff_not, Nat.not_lt, Nat.not_lt, ← List.getElem?_eq_none_iff, ← List.getElem?_eq_none_iff]
  generalize b.definitions[i]? = d?, b'.definitions[ρ i]? = d'? at related
  cases related <;> simp

/-- The second builder holds the definitions of the first under other numbers, in another order. -/
theorem perm : ∃ ds, List.Forall₂ (Definition.Renumbered ρ) b.definitions ds ∧ ds.Perm b'.definitions := by
  let moved (i : Nat) : Definition := (b'.definitions[i]?).getD default
  have places : ((List.range b.definitions.length).map ρ).Perm (List.range b'.definitions.length) := by
    refine (List.perm_ext_iff_of_nodup (List.nodup_range.map ρ.injective) List.nodup_range).2 fun j => ?_
    rw [List.mem_map, List.mem_range, ← ρ.apply_symm_apply j, reordered.lt_length_iff]
    constructor
    · rintro ⟨i, mem, same⟩
      rwa [← ρ.injective same, ← List.mem_range]
    · exact fun bound => ⟨_, List.mem_range.2 bound, rfl⟩
  have listed : (List.range b'.definitions.length).map moved = b'.definitions := by
    refine List.ext_getElem (by simp) fun i _ bound => ?_
    simp [moved, bound]
  refine ⟨((List.range b.definitions.length).map ρ).map moved, ?_, ?_⟩
  · refine List.forall₂_iff_get.2 ⟨by simp, fun i bound _ => ?_⟩
    have related := reordered.definitions i
    rw [List.getElem?_eq_getElem bound] at related
    simp only [List.get_eq_getElem, List.getElem_map, List.getElem_range, moved]
    generalize b'.definitions[ρ i]? = d'? at related ⊢
    cases related with
    | some related => exact related
  · rw [← listed, listed]
    have moves := places.map moved
    rwa [listed] at moves

end RegistryBuilder.Reordered

/-- A definition is what some types make of a spec, at a place in the order of registration. -/
structure Definition.Makes (types : TypeBuilder) (spec : DefinitionSpec) (id : Nat) (d : Definition) : Prop where
  id : d.id = id
  name : d.name = spec.name.getD (spec.patterns.headD "")
  category : d.category = spec.category
  patterns : spec.patterns.mapM (Pattern.compile types.table.resolve) = .ok d.patterns
  priority : d.priority = spec.priority
  returns : ({ types } : RegistryBuilder).returnType spec = .ok d.returns
  decide : d.decide = spec.decide

/-- A value is what some types make of a spec, for the definition that provides it. -/
structure ContextValue.Makes (types : TypeBuilder) (owner : Nat) (spec : ContextValueSpec) (value : ContextValue) :
    Prop where
  owner : value.owner = owner
  pattern : Pattern.compile types.table.resolve spec.pattern = .ok value.pattern
  type : types.table.resolve spec.returns = some value.type
  state : value.state = spec.state
  usage : value.usage = spec.usage

/-- What some types make of the same spec for two definitions differs in the definition. -/
theorem ContextValue.Makes.renumbered {types : TypeBuilder} {owner owner' : Nat} {spec : ContextValueSpec}
    {value value' : ContextValue} (made : value.Makes types owner spec)
    (made' : value'.Makes types owner' spec) : value' = { value with owner := owner' } := by
  have pattern : value'.pattern = value.pattern := Except.ok.inj (made'.pattern.symm.trans made.pattern)
  have type : value'.type = value.type := Option.some.inj (made'.type.symm.trans made.type)
  have state : value'.state = value.state := made'.state.trans made.state.symm
  have usage : value'.usage = value.usage := made'.usage.trans made.usage.symm
  obtain ⟨rfl⟩ := made'.owner
  cases value'
  simp only at pattern type state usage
  rw [pattern, type, state, usage]

/-- A definition as it is registered, with the values that it provides. -/
abbrev Declaration := DefinitionSpec × List ContextValueSpec

/-- The entry of a vocabulary for a definition. -/
def Declaration.entry (declaration : Declaration) : Entry :=
  .definition declaration.1 declaration.2

/-- The same declaration for a definition under another number. -/
structure Declaration.Renumbered (ρ : Equiv.Perm Nat) (a a' : Declaration) : Prop where
  name : a'.1.name = a.1.name
  category : a'.1.category = a.1.category
  patterns : a'.1.patterns = a.1.patterns
  priority : a'.1.priority = a.1.priority
  returns : a'.1.returns = a.1.returns
  values : a'.2 = a.2
  decide (node : Node) : (a.1.decide node).Corresponds (.renumbering ρ)
    (a'.1.decide (node.translate (.renumbering ρ)))

namespace RegistryBuilder

theorem register_makes {b b' : RegistryBuilder} {spec : DefinitionSpec} {id : Nat}
    (step : b.register spec = .ok (b', id)) :
    id = b.definitions.length ∧ ∃ d, Definition.Makes b.types spec id d ∧
      ∃ ambiguities, b' = { b with definitions := b.definitions ++ [d], ambiguities } := by
  unfold register at step
  split at step
  · cases step
  next first others written =>
    obtain ⟨patterns, compiled, step⟩ := bind_eq_ok step
    obtain ⟨returns, returned, step⟩ := bind_eq_ok step
    obtain ⟨_, -, step⟩ := bind_eq_ok step
    cases step
    refine ⟨rfl, _, ?_, _, rfl⟩
    exact ⟨rfl, by rw [written]; rfl, rfl, compiled, rfl, returned, rfl⟩

theorem registerContextValue_makes {b b' : RegistryBuilder} {owner : Nat} {spec : ContextValueSpec}
    (step : b.registerContextValue owner spec = .ok b') :
    ∃ value, ContextValue.Makes b.types owner spec value ∧
      b' = { b with contextValues := b.contextValues ++ [value] } := by
  simp only [registerContextValue, bind, Except.bind, throw, throwThe, MonadExceptOf.throw, pure,
    Except.pure] at step
  split at step
  · cases step
  cases compiled : Pattern.compile b.resolve spec.pattern with
  | error => simp [compiled] at step
  | ok p =>
    simp only [compiled] at step
    split at step
    · cases step
    split at step
    · cases step
    next type resolved =>
      cases step
      refine ⟨_, ?_, rfl⟩
      exact ⟨rfl, compiled, resolved, rfl, rfl⟩

theorem addContextValues_makes {b b' : RegistryBuilder} {owner : Nat} {specs : List ContextValueSpec}
    (added : b.addContextValues owner specs = (b', none)) :
    ∃ values, List.Forall₂ (ContextValue.Makes b.types owner) specs values ∧
      b' = { b with contextValues := b.contextValues ++ values } := by
  induction specs generalizing b with
  | nil =>
    cases added
    exact ⟨[], .nil, by rw [List.append_nil]⟩
  | cons spec rest ih =>
    rw [addContextValues] at added
    split at added
    next b₁ step =>
      obtain ⟨value, made, rfl⟩ := registerContextValue_makes step
      obtain ⟨values, others, rfl⟩ := ih added
      exact ⟨value :: values, .cons made others, by simp⟩
    next => cases added

/-- A builder holds what some types make of some declarations, and nothing else but types. -/
structure Holds (b : RegistryBuilder) (types : TypeBuilder) (declarations : List Declaration) : Prop where
  keeps : b.types = types
  definitions (i : Nat) :
    Option.Rel (fun declaration d => Definition.Makes types declaration.1 i d) declarations[i]? b.definitions[i]?
  contextValues (i : Nat) : List.Forall₂ (ContextValue.Makes types i) ((declarations[i]?.map Prod.snd).getD [])
    (b.contextValues.filter fun value => value.owner == i)

theorem holds_nil {b : RegistryBuilder} (definitions : b.definitions = []) (values : b.contextValues = []) :
    b.Holds b.types [] where
  keeps := rfl
  definitions i := by
    rw [definitions]
    exact .none
  contextValues i := by
    rw [values]
    exact .nil

variable {b b' : RegistryBuilder} {types : TypeBuilder} {declarations : List Declaration}

theorem Holds.length (holds : b.Holds types declarations) : b.definitions.length = declarations.length := by
  have none_iff (i : Nat) : b.definitions.length ≤ i ↔ declarations.length ≤ i := by
    have related := holds.definitions i
    rw [← List.getElem?_eq_none_iff, ← List.getElem?_eq_none_iff]
    generalize declarations[i]? = x?, b.definitions[i]? = d? at related
    cases related <;> simp
  exact Nat.le_antisymm ((none_iff _).2 (Nat.le_refl _)) ((none_iff _).1 (Nat.le_refl _))

/-- One more declaration is added. -/
theorem Holds.snoc (holds : b.Holds types declarations) {declaration : Declaration}
    (added : b.add declaration.entry = (b', none)) : b'.Holds types (declarations ++ [declaration]) := by
  obtain ⟨spec, specs⟩ := declaration
  simp only [Declaration.entry, add] at added
  split at added
  next b₁ id step =>
    obtain ⟨rfl, d, made, ambiguities, rfl⟩ := register_makes step
    obtain ⟨values, valuesMade, rfl⟩ := addContextValues_makes added
    have owned {value : ContextValue} (mem : value ∈ values) : value.owner = b.definitions.length := by
      obtain ⟨spec, -, made⟩ := List.exists_of_mem_forall₂ valuesMade mem
      exact made.owner
    have length := holds.length
    rw [holds.keeps] at made valuesMade
    constructor
    · exact holds.keeps
    · intro i
      rcases Nat.lt_trichotomy i declarations.length with before | rfl | beyond
      · rw [List.getElem?_append_left before, List.getElem?_append_left (length ▸ before)]
        exact holds.definitions i
      · rw [List.getElem?_concat_length]
        dsimp only
        rw [← length, List.getElem?_concat_length]
        exact .some made
      · rw [List.getElem?_eq_none (by simp; omega), List.getElem?_eq_none (by simp; omega)]
        exact .none
    · intro i
      have before := holds.contextValues i
      rw [List.filter_append]
      by_cases here : i = declarations.length
      · subst here
        rw [List.getElem?_eq_none (Nat.le_refl _)] at before
        have none := List.forall₂_nil_left_iff.1 before
        have all : values.filter (fun value => value.owner == declarations.length) = values :=
          List.filter_eq_self.2 fun value mem => by rw [owned mem, length, beq_self_eq_true]
        rw [List.getElem?_concat_length, none, all, List.nil_append, ← length]
        exact valuesMade
      · have none : values.filter (fun value => value.owner == i) = [] :=
          List.filter_eq_nil_iff.2 fun value mem => by
            rw [owned mem, length, beq_iff_eq]
            exact Ne.symm here
        rw [none, List.append_nil]
        rcases Nat.lt_or_gt_of_ne here with less | more
        · rwa [List.getElem?_append_left less]
        · rw [List.getElem?_eq_none (Nat.le_of_lt more)] at before
          rwa [List.getElem?_eq_none (by simp; omega)]
  next => cases added

theorem Holds.addAll (holds : b.Holds types declarations) {more : List Declaration}
    (added : b.addAll (more.map Declaration.entry) = (b', none)) : b'.Holds types (declarations ++ more) := by
  induction more generalizing b declarations with
  | nil =>
    cases added
    rwa [List.append_nil]
  | cons declaration rest ih =>
    rw [List.map_cons, RegistryBuilder.addAll] at added
    split at added
    next b₁ step =>
      have rest := ih (holds.snoc step) added
      rwa [List.append_assoc] at rest
    next => cases added

/-- What some types make of the same declaration at two places is the same definition under two numbers. -/
theorem makes_renumbered {ρ : Equiv.Perm Nat} {a a' : Declaration} {i : Nat} {d d' : Definition}
    (moved : a.Renumbered ρ a') (made : d.Makes types a.1 i) (made' : d'.Makes types a'.1 (ρ i)) :
    d.Renumbered ρ d' := by
  have returned : ({ types } : RegistryBuilder).returnType a'.1 = ({ types } : RegistryBuilder).returnType a.1 := by
    simp only [returnType, moved.returns, moved.category, moved.patterns]
  refine ⟨?_, ?_, ?_, ?_, ?_, ?_, fun node => ?_⟩
  · rw [made'.id, made.id]
  · rw [made'.name, made.name, moved.name, moved.patterns]
  · rw [made'.category, made.category, moved.category]
  · have compiled := made'.patterns
    rw [moved.patterns, made.patterns] at compiled
    exact (Except.ok.inj compiled).symm
  · rw [made'.priority, made.priority, moved.priority]
  · have compiled := made'.returns
    rw [returned, made.returns] at compiled
    exact (Except.ok.inj compiled).symm
  · rw [made'.decide, made.decide]
    exact moved.decide node

/-- **Definitions added in another order** make a builder that differs in nothing else. -/
theorem addAll_reordered {ρ : Equiv.Perm Nat} {declarations declarations' : List Declaration}
    (definitions : b.definitions = []) (values : b.contextValues = [])
    (complete : (b.addAll (declarations.map Declaration.entry)).2 = none)
    (complete' : (b.addAll (declarations'.map Declaration.entry)).2 = none)
    (moved : ∀ i, Option.Rel (Declaration.Renumbered ρ) declarations[i]? declarations'[ρ i]?) :
    (b.addAll (declarations.map Declaration.entry)).1.Reordered ρ
      (b.addAll (declarations'.map Declaration.entry)).1 := by
  have bare := holds_nil definitions values
  have holds : (b.addAll (declarations.map Declaration.entry)).1.Holds b.types declarations :=
    bare.addAll (Prod.ext rfl complete)
  have holds' : (b.addAll (declarations'.map Declaration.entry)).1.Holds b.types declarations' :=
    bare.addAll (Prod.ext rfl complete')
  refine ⟨holds'.keeps.trans holds.keeps.symm, (addAll_config b _).trans (addAll_config b _).symm,
    fun i => ?_, fun owner => ?_⟩
  · have made := holds.definitions i
    have made' := holds'.definitions (ρ i)
    have moved := moved i
    generalize declarations[i]? = a?, declarations'[ρ i]? = a'? at made made' moved
    generalize (b.addAll (declarations.map Declaration.entry)).1.definitions[i]? = d? at made
    generalize (b.addAll (declarations'.map Declaration.entry)).1.definitions[ρ i]? = d'? at made'
    cases moved with
    | none =>
      cases made
      cases made'
      exact .none
    | some moved =>
      cases made with
      | some made =>
        cases made' with
        | some made' => exact .some (makes_renumbered moved made made')
  · have made := holds.contextValues owner
    have made' := holds'.contextValues (ρ owner)
    have same : (declarations'[ρ owner]?.map Prod.snd).getD [] = (declarations[owner]?.map Prod.snd).getD [] := by
      have moved := moved owner
      generalize declarations[owner]? = a?, declarations'[ρ owner]? = a'? at moved
      cases moved with
      | none => rfl
      | some moved => exact moved.values
    rw [same] at made'
    generalize (declarations[owner]?.map Prod.snd).getD [] = specs at made made'
    generalize (b.addAll (declarations.map Declaration.entry)).1.contextValues.filter _ = given at made ⊢
    generalize (b.addAll (declarations'.map Declaration.entry)).1.contextValues.filter _ = given' at made' ⊢
    induction made generalizing given' with
    | nil =>
      cases made'
      rfl
    | @cons spec value specs given made _ ih =>
      cases made' with
      | cons made' others' =>
        rw [ih _ others', made.renumbered made', List.map_cons, made.owner]

end RegistryBuilder

end Phrasebook
