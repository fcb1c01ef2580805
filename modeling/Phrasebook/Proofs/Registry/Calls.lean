import Mathlib.Data.List.Induction
import Phrasebook.Proofs.Registry.Reordered
import Phrasebook.Proofs.Step
import Phrasebook.Registration

/-!
# What calls on a builder leave

`perform_eq`: although a call works on the builder in place, one that fails has changed nothing, and one that
succeeds has done what the registration functions of `RegistryBuilder` do.
-/

namespace Phrasebook

namespace RegistryBuilder

variable {b : RegistryBuilder}

/-- Settings that warn permit every ambiguity. -/
theorem permit_warn (policy : b.config.ambiguity = .warn) (ambiguities : List Ambiguity) :
    b.permit ambiguities = .ok () := by
  cases ambiguities with
  | nil => rfl
  | cons a rest => simp [permit, policy]

/-- Settings that deny permit no ambiguity. -/
theorem permit_deny (policy : b.config.ambiguity = .deny) {ambiguities : List Ambiguity} :
    b.permit ambiguities = .ok () ↔ ambiguities = [] := by
  cases ambiguities with
  | nil => simp [permit]
  | cons a rest => simp [permit, policy]

end RegistryBuilder

namespace Registering

/-- The outcome of work that does all or nothing. -/
def outcome {α : Type} (b : RegistryBuilder) :
    Except Cause (RegistryBuilder × α) → Except Cause α × RegistryBuilder
  | .ok (b', a) => (.ok a, b')
  | .error cause => (.error cause, b)

section Steps

variable {α β : Type} {b : RegistryBuilder}

theorem bind_apply (x : Registering α) (f : α → Registering β) (b : RegistryBuilder) :
    (x >>= f) b =
      match x b with
      | (.ok a, b') => f a b'
      | (.error cause, b') => (.error cause, b') := by
  cases h : x b with
  | mk result b' =>
    cases result with
    | error cause => exact bind_error h
    | ok a => exact Ends.bind_apply h

theorem lift_apply (x : Except Cause α) (b : RegistryBuilder) : (liftM x : Registering α) b = (x, b) := by
  cases x <;> rfl

theorem get_apply (b : RegistryBuilder) : (get : Registering RegistryBuilder) b = (.ok b, b) := rfl

theorem throw_apply (cause : Cause) (b : RegistryBuilder) : (throw cause : Registering α) b = (.error cause, b) := rfl

end Steps

variable {b : RegistryBuilder}

/-- All names are free, or the first that is not is the cause. -/
theorem requireFree_apply (names : List String) (b : RegistryBuilder) :
    requireFree names b =
      match names.find? fun name => (b.types.table.names.lookup name).isSome with
      | some name => (.error (.duplicateType name), b)
      | none => (.ok (), b) := by
  induction names with
  | nil => rfl
  | cons name rest ih =>
    rw [requireFree, bind_apply, get_apply]
    cases taken : (b.types.table.names.lookup name).isSome with
    | true => simp [taken, bind_apply, throw_apply]
    | false => simp [taken, ih]

theorem typeNamed_apply (name : String) (b : RegistryBuilder) :
    typeNamed name b = (b.types.table.typeId name, b) := by
  rw [typeNamed, bind_apply, get_apply]
  simp only [RegistryBuilder.resolve, TypeTable.typeId]
  cases b.types.table.resolve name <;> rfl

theorem supertypeOf_apply (spec : TypeSpec) (b : RegistryBuilder) :
    supertypeOf spec b =
      ((match spec.supertype with
        | none => .ok none
        | some name => some <$> b.types.table.typeId name : Except Cause (Option TypeId)), b) := by
  unfold supertypeOf
  cases spec.supertype with
  | none => rfl
  | some name =>
    show (some <$> typeNamed name) b = _
    rw [map_eq_pure_bind, bind_apply, typeNamed_apply]
    dsimp only
    cases b.types.table.typeId name <;> rfl

/-- Adding a type does all or nothing. -/
theorem addType_apply (spec : TypeSpec) (b : RegistryBuilder) :
    addType spec b = outcome b (b.registerType spec) := by
  simp only [addType, RegistryBuilder.registerType, TypeBuilder.registerType, TypeTable.register, TypeTable.taken?]
  split
  · rfl
  · rw [bind_apply, requireFree_apply]
    cases [TypeTable.key spec.name, TypeTable.key spec.plural].find? fun name =>
        (b.types.table.names.lookup name).isSome with
    | some name => rfl
    | none =>
      dsimp only
      rw [bind_apply, supertypeOf_apply]
      cases spec.supertype with
      | none => rfl
      | some name =>
        simp only [TypeTable.typeId]
        cases b.types.table.resolve name <;> rfl

/-- Adding a converter does all or nothing. -/
theorem addConverter_apply (source target : String) (convert : Value → Option Value) (b : RegistryBuilder) :
    addConverter source target convert b =
      outcome b ((b.registerConverter source target convert).map fun b' => (b', ())) := by
  simp only [addConverter, RegistryBuilder.registerConverter, TypeBuilder.registerConverter]
  rw [bind_apply, typeNamed_apply]
  cases b.types.table.typeId source with
  | error => rfl
  | ok source =>
    dsimp only
    rw [bind_apply, typeNamed_apply]
    cases b.types.table.typeId target <;> rfl

/-- A pattern that may be added brings its ambiguities. -/
theorem checkPattern_apply (category : Category) (priority : Int) (p : Pattern) (b : RegistryBuilder) :
    checkPattern category priority p b =
      outcome b ((b.permit (b.ambiguitiesOf category priority p)).map fun _ =>
        ({ b with ambiguities := b.ambiguities ++ b.ambiguitiesOf category priority p }, ())) := by
  rw [checkPattern, bind_apply, get_apply]
  dsimp only [RegistryBuilder.ambiguitiesOf]
  cases b.rival? category priority p with
  | none =>
    simp only [List.append_nil]
    rfl
  | some rival =>
    dsimp only [RegistryBuilder.permit]
    cases b.config.ambiguity <;> rfl

/-- Patterns bring their ambiguities one after the other, or one that is refused brings all to an end, before
anything is noted. -/
theorem checkPatterns_apply (category : Category) (priority : Int) (patterns : List Pattern)
    (b : RegistryBuilder) :
    checkPatterns category priority patterns b =
      outcome b ((b.permit (patterns.flatMap (b.ambiguitiesOf category priority))).map fun _ =>
        ({ b with ambiguities := b.ambiguities ++ patterns.flatMap (b.ambiguitiesOf category priority) }, ())) := by
  induction patterns generalizing b with
  | nil =>
    simp only [List.flatMap_nil, List.append_nil]
    rfl
  | cons p rest ih =>
    rw [checkPatterns, bind_apply, checkPattern_apply, List.flatMap_cons]
    cases here : b.ambiguitiesOf category priority p with
    | nil =>
      simp only [List.append_nil, List.nil_append]
      exact ih b
    | cons a others =>
      have one : others = [] := by
        unfold RegistryBuilder.ambiguitiesOf at here
        split at here <;> simp_all
      subst one
      cases policy : b.config.ambiguity with
      | deny =>
        simp only [RegistryBuilder.permit, List.cons_append, policy]
        rfl
      | warn =>
        have policy' : { b with ambiguities := b.ambiguities ++ [a] }.config.ambiguity = .warn := policy
        have later := ih { b with ambiguities := b.ambiguities ++ [a] }
        rw [RegistryBuilder.permit_warn policy'] at later
        rw [RegistryBuilder.permit_warn policy, RegistryBuilder.permit_warn policy, ← List.append_assoc]
        exact later

/-- Adding a definition does all or nothing. -/
theorem addDefinition_apply (spec : DefinitionSpec) (b : RegistryBuilder) :
    addDefinition spec b = outcome b (b.register spec) := by
  unfold addDefinition RegistryBuilder.register
  cases spec.patterns with
  | nil => rfl
  | cons first others =>
    dsimp only
    rw [bind_apply, get_apply]
    dsimp only
    rw [bind_apply, lift_apply]
    cases (first :: others).mapM (Pattern.compile b.resolve) with
    | error => rfl
    | ok patterns =>
      dsimp only
      rw [bind_apply, lift_apply]
      cases b.returnType spec with
      | error => rfl
      | ok returns =>
        dsimp only
        rw [bind_apply, checkPatterns_apply]
        simp only [bind, Except.bind]
        cases b.permit (patterns.flatMap (b.ambiguitiesOf spec.category spec.priority)) <;> rfl

/-- Adding a context value does all or nothing. -/
theorem addContextValue_apply (owner : Nat) (spec : ContextValueSpec) (b : RegistryBuilder) :
    addContextValue owner spec b =
      outcome b ((b.registerContextValue owner spec).map fun b' => (b', ())) := by
  unfold addContextValue RegistryBuilder.registerContextValue
  rw [bind_apply, get_apply]
  dsimp only
  split
  · rfl
  · rw [bind_apply, lift_apply]
    cases Pattern.compile b.resolve spec.pattern with
    | error => rfl
    | ok compiled =>
      dsimp only [bind, Except.bind]
      split
      · rfl
      · cases b.resolve spec.returns <;> rfl

end Registering

namespace Registration

/-- What the registration functions make of a call. -/
def result (b : RegistryBuilder) : Registration → Except Cause (RegistryBuilder × Answer)
  | type spec => (b.registerType spec).map fun (b', id) => (b', .type id)
  | converter source target convert => (b.registerConverter source target convert).map fun b' => (b', .done)
  | definition spec => (b.register spec).map fun (b', id) => (b', .definition id)
  | contextValue owner spec => (b.registerContextValue owner spec).map fun b' => (b', .done)
  | settings config => .ok (b.setConfig config, .done)

open Registering

/-- **A call does all or nothing.** -/
theorem perform_eq (call : Registration) (b : RegistryBuilder) : call.perform b = outcome b (call.result b) := by
  show call.work b = _
  cases call with
  | type spec =>
    rw [work, map_eq_pure_bind, bind_apply, addType_apply, result]
    cases b.registerType spec <;> rfl
  | converter source target convert =>
    rw [work, bind_apply, addConverter_apply, result]
    cases b.registerConverter source target convert <;> rfl
  | definition spec =>
    rw [work, map_eq_pure_bind, bind_apply, addDefinition_apply, result]
    cases b.register spec <;> rfl
  | contextValue owner spec =>
    rw [work, bind_apply, addContextValue_apply, result]
    cases b.registerContextValue owner spec <;> rfl
  | settings config => rfl

/-- A call that fails leaves the builder as it was. -/
theorem perform_error {call : Registration} {b : RegistryBuilder} {cause : Cause}
    (fails : (call.perform b).1 = .error cause) : (call.perform b).2 = b := by
  rw [perform_eq] at fails ⊢
  cases result : call.result b with
  | error => rfl
  | ok =>
    rw [result] at fails
    cases fails

/-- A call that succeeds does what the registration functions do. -/
theorem perform_ok {call : Registration} {b : RegistryBuilder} {answer : Answer}
    (ends : (call.perform b).1 = .ok answer) : call.result b = .ok ((call.perform b).2, answer) := by
  rw [perform_eq] at ends ⊢
  cases result : call.result b with
  | error =>
    rw [result] at ends
    cases ends
  | ok made =>
    rw [result] at ends
    cases ends
    rfl

/-- What a call with an answer adds to a builder: all that is in it after the call. -/
inductive Adds (b : RegistryBuilder) : Registration → Answer → RegistryBuilder → Prop where
  /-- a type takes the next place, and its two names mean it -/
  | type {spec : TypeSpec} {supertype : Option PatternType}
    (singular : b.types.table.names.lookup (TypeTable.key spec.name) = none)
    (plural : b.types.table.names.lookup (TypeTable.key spec.plural) = none)
    (known : spec.supertype.map b.resolve = supertype.map some) :
    Adds b (.type spec) (.type b.types.table.entries.size)
      { b with types := { b.types with table :=
        { entries := b.types.table.entries.push { spec, supertype := supertype.map PatternType.type }
          names := (TypeTable.key spec.plural, .several b.types.table.entries.size) ::
            (TypeTable.key spec.name, .one b.types.table.entries.size) :: b.types.table.names } } }
  | converter {source target : String} {convert : Value → Option Value} {first second : PatternType}
    (known : b.resolve source = some first) (known' : b.resolve target = some second) :
    Adds b (.converter source target convert) .done
      { b with types := { b.types with converters :=
        b.types.converters ++ [{ source := first.type, target := second.type, convert }] } }
  /-- a definition takes the next place, and brings its ambiguities, if there may be any -/
  | definition {spec : DefinitionSpec} {d : Definition}
    (makes : d.Makes b.types spec b.definitions.length)
    (permitted : b.permit (d.patterns.flatMap (b.ambiguitiesOf d.category d.priority)) = .ok ()) :
    Adds b (.definition spec) (.definition b.definitions.length)
      { b with
        definitions := b.definitions ++ [d]
        ambiguities := b.ambiguities ++ d.patterns.flatMap (b.ambiguitiesOf d.category d.priority) }
  | contextValue {owner : Nat} {spec : ContextValueSpec} {value : ContextValue}
    (makes : value.Makes b.types owner spec) :
    Adds b (.contextValue owner spec) .done { b with contextValues := b.contextValues ++ [value] }
  | settings {config : Config} : Adds b (.settings config) .done (b.setConfig config)

section Adds

variable {b b' : RegistryBuilder}

theorem adds_type {spec : TypeSpec} {id : TypeId} (step : b.registerType spec = .ok (b', id)) :
    Adds b (.type spec) (.type id) b' := by
  obtain ⟨⟨types, id⟩, added, step⟩ := bind_eq_ok step
  cases step
  obtain ⟨⟨table, id⟩, registered, added⟩ := bind_eq_ok added
  cases added
  unfold TypeTable.register at registered
  dsimp only at registered
  split at registered
  · cases registered
  split at registered
  · cases registered
  next free =>
    have free : ∀ name ∈ [TypeTable.key spec.name, TypeTable.key spec.plural],
        b.types.table.names.lookup name = none := by
      intro name mem
      have none := List.find?_eq_none.1 free name mem
      exact Option.not_isSome_iff_eq_none.1 none
    have singular := free _ List.mem_cons_self
    have plural := free _ (List.mem_cons_of_mem _ List.mem_cons_self)
    split at registered
    next unnamed =>
      cases registered
      have known : spec.supertype.map b.resolve = (none : Option PatternType).map some := by rw [unnamed]; rfl
      exact .type singular plural known
    next name named =>
      split at registered
      next found resolved =>
        cases registered
        have known : spec.supertype.map b.resolve = (some found).map some := by
          rw [named]
          exact congrArg some resolved
        exact .type singular plural known
      · cases registered

theorem adds_converter {source target : String} {convert : Value → Option Value}
    (step : b.registerConverter source target convert = .ok b') :
    Adds b (.converter source target convert) .done b' := by
  have named {name : String} {id : TypeId} (h : b.types.table.typeId name = .ok id) :
      ∃ found, b.resolve name = some found ∧ found.type = id := by
    unfold TypeTable.typeId at h
    split at h
    next found resolved =>
      cases h
      exact ⟨found, resolved, rfl⟩
    · cases h
  obtain ⟨types, added, step⟩ := bind_eq_ok step
  cases step
  obtain ⟨_, first, added⟩ := bind_eq_ok added
  obtain ⟨_, second, added⟩ := bind_eq_ok added
  cases added
  obtain ⟨found, resolved, rfl⟩ := named first
  obtain ⟨found', resolved', rfl⟩ := named second
  exact .converter resolved resolved'

theorem adds_definition {spec : DefinitionSpec} {id : Nat} (step : b.register spec = .ok (b', id)) :
    Adds b (.definition spec) (.definition id) b' := by
  unfold RegistryBuilder.register at step
  split at step
  · cases step
  next first others written =>
    obtain ⟨patterns, compiled, step⟩ := bind_eq_ok step
    obtain ⟨returns, returned, step⟩ := bind_eq_ok step
    obtain ⟨_, permitted, step⟩ := bind_eq_ok step
    cases step
    have name : spec.name.getD first = spec.name.getD (spec.patterns.headD "") := by rw [written]; rfl
    exact .definition ⟨rfl, name, rfl, compiled, rfl, returned, rfl⟩ permitted

theorem adds_contextValue {owner : Nat} {spec : ContextValueSpec}
    (step : b.registerContextValue owner spec = .ok b') : Adds b (.contextValue owner spec) .done b' := by
  obtain ⟨value, makes, rfl⟩ := RegistryBuilder.registerContextValue_makes step
  exact .contextValue makes

/-- **What a call that succeeds adds.** -/
theorem adds_of_perform {call : Registration} {answer : Answer} (ends : (call.perform b).1 = .ok answer) :
    Adds b call answer (call.perform b).2 := by
  have made := perform_ok ends
  generalize (call.perform b).2 = b' at made
  have of_map {α : Type} {x : Except Cause α} {f : α → RegistryBuilder × Answer}
      (h : x.map f = .ok (b', answer)) : ∃ a, x = .ok a ∧ f a = (b', answer) := by
    cases x with
    | error => cases h
    | ok a => exact ⟨a, rfl, Except.ok.inj h⟩
  cases call with
  | type spec =>
    rw [result] at made
    obtain ⟨⟨_, id⟩, step, same⟩ := of_map made
    cases same
    exact adds_type step
  | converter source target convert =>
    rw [result] at made
    obtain ⟨_, step, same⟩ := of_map made
    cases same
    exact adds_converter step
  | definition spec =>
    rw [result] at made
    obtain ⟨⟨_, id⟩, step, same⟩ := of_map made
    cases same
    exact adds_definition step
  | contextValue owner spec =>
    rw [result] at made
    obtain ⟨_, step, same⟩ := of_map made
    cases same
    exact adds_contextValue step
  | settings config =>
    cases made
    exact .settings

end Adds

end Registration

namespace RegistryBuilder

/-- All that a builder holds stands at the same place of another one, and names mean there what they meant. -/
structure KeptIn (b b' : RegistryBuilder) : Prop where
  entries : b.types.table.entries.toList <+: b'.types.table.entries.toList
  names : ∀ name type, b.types.table.names.lookup name = some type → b'.types.table.names.lookup name = some type
  converters : b.types.converters <+: b'.types.converters
  definitions : b.definitions <+: b'.definitions
  contextValues : b.contextValues <+: b'.contextValues
  ambiguities : b.ambiguities <+: b'.ambiguities

namespace KeptIn

variable {a b c : RegistryBuilder}

theorem refl (b : RegistryBuilder) : b.KeptIn b :=
  ⟨List.prefix_refl _, fun _ _ => id, List.prefix_refl _, List.prefix_refl _, List.prefix_refl _, List.prefix_refl _⟩

theorem trans (h : a.KeptIn b) (h' : b.KeptIn c) : a.KeptIn c where
  entries := h.entries.trans h'.entries
  names name type found := h'.names name type (h.names name type found)
  converters := h.converters.trans h'.converters
  definitions := h.definitions.trans h'.definitions
  contextValues := h.contextValues.trans h'.contextValues
  ambiguities := h.ambiguities.trans h'.ambiguities

end KeptIn

variable {b b' : RegistryBuilder}

theorem keptIn_of_adds {call : Registration} {answer : Registration.Answer} (adds : call.Adds b answer b') :
    b.KeptIn b' := by
  have same := KeptIn.refl b
  cases adds with
  | @type spec _ singular plural =>
    refine { same with entries := ?_, names := fun name type found => ?_ }
    · rw [Array.toList_push]
      exact List.prefix_append _ _
    · -- the two names were free before
      have other : ∀ free, b.types.table.names.lookup free = none → (name == free) = false := by
        intro free none
        rw [beq_eq_false_iff_ne]
        rintro rfl
        rw [none] at found
        cases found
      simp only [List.lookup_cons, other _ singular, other _ plural]
      exact found
  | converter => exact { same with converters := List.prefix_append _ _ }
  | definition =>
    exact { same with definitions := List.prefix_append _ _, ambiguities := List.prefix_append _ _ }
  | contextValue => exact { same with contextValues := List.prefix_append _ _ }
  | settings => exact { same with }

theorem after_append (b : RegistryBuilder) (calls later : List Registration) :
    b.after (calls ++ later) = (b.after calls).after later :=
  List.foldl_append

theorem after_snoc (b : RegistryBuilder) (calls : List Registration) (call : Registration) :
    b.after (calls ++ [call]) = (call.perform (b.after calls)).2 := by
  rw [after_append]
  rfl

/-- **Whatever is called, all that a builder holds stays where it is.** -/
theorem keptIn_after (b : RegistryBuilder) (calls : List Registration) : b.KeptIn (b.after calls) := by
  induction calls using List.reverseRecOn with
  | nil => exact .refl b
  | append_singleton calls call ih =>
    rw [after_snoc]
    refine ih.trans ?_
    cases ends : (call.perform (b.after calls)).1 with
    | error =>
      rw [Registration.perform_error ends]
      exact .refl _
    | ok => exact keptIn_of_adds (Registration.adds_of_perform ends)

end RegistryBuilder

end Phrasebook
