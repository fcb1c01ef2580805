import Phrasebook.Proofs.Script.Calm
import Phrasebook.Proofs.Script.Scopes
import Phrasebook.Proofs.Standard.Print

/-!
# Local variables in the standard vocabulary

Of the standard vocabulary only the effect that sets changes anything, and all it does is to declare the local
variables that it sets. So in every script the scopes follow the blocks, and those local variables are reported that
no row has set whose block is still open.
-/

namespace Phrasebook

/-- A decision only looks at its surroundings, and the nodes that it accepts satisfy a condition. -/
def Action.Looks (P : Node → Prop) : Action → Prop
  | .accept node => P node
  | .reject _ => True
  | .look next => ∀ view, (next view).Looks P
  | .edit _ _ => False
  | .parse _ _ _ => False

namespace Action

variable {P : Node → Prop} {names : Node → List String} {declared : List String} {action : Action}

theorem Looks.verdict? (looks : action.Looks P) (view : View) : (action.verdict? view).isSome := by
  induction action with
  | accept | reject => rfl
  | look next ih => exact ih view (looks view)
  | edit | parse => exact looks.elim

/-- Where a decision only looks, no name is declared. -/
theorem Looks.declares (looks : action.Looks P) (none : ∀ node, P node → names node = []) :
    action.Declares names [] := by
  induction action with
  | accept node => exact (none node looks).symm
  | reject => trivial
  | look next ih => exact fun view => ih view (looks view)
  | edit | parse => exact looks.elim

/-- Names are declared one after the other. -/
theorem declares_edits {added : List String} {node : Node} (all : declared ++ added = names node) :
    (edits (added.map .declare) (.accept node)).Declares names declared := by
  induction added generalizing declared with
  | nil => exact (List.append_nil declared).symm.trans all
  | cons name rest ih =>
    refine ih ?_
    rw [List.append_assoc]
    exact all

/-- A decision that only declares names does not ask to cancel. -/
theorem Declares.neverCancels (declares : action.Declares names declared) : action.NeverCancels := by
  induction action generalizing declared with
  | accept | reject => trivial
  | look next ih => exact fun view => ih view (declares view)
  | edit change next ih =>
    cases change with
    | declare name => exact ⟨nofun, ih declares⟩
    | report | pushScope | popScope | cancel => exact declares.elim
  | parse => exact declares.elim

end Action

namespace Clause

/-- A part of a decision only looks if what comes next does, to which it passes a node of the same name. -/
def Looks (clause : Clause) : Prop :=
  ∀ (P : Node → Prop) node next, (∀ node' : Node, node'.name = node.name → (next node').Looks P) →
    (clause node next).Looks P

theorem looks_rejecting (reason? : Node → Option String) : Looks (rejecting reason?) := by
  intro P node next looks
  unfold rejecting
  split
  · trivial
  · exact looks node rfl

theorem looks_ofContextValue (name : String) (state : ValueState) (alone : Bool) :
    Looks (ofContextValue name state alone) := by
  intro P node next looks view
  dsimp only
  split
  · trivial
  · exact looks _ rfl

/-- A decision only looks if all its parts do. -/
theorem looks_decision {clauses : List Clause} (looks : ∀ clause ∈ clauses, Looks clause) (node : Node) :
    (decision clauses node).Looks fun accepted => accepted.name = node.name := by
  have all {clauses : List Clause} (looks : ∀ clause ∈ clauses, Looks clause) (node' : Node)
      (same : node'.name = node.name) :
      (decision clauses node').Looks fun accepted => accepted.name = node.name := by
    induction clauses generalizing node' with
    | nil => exact same
    | cons clause rest ih =>
      refine looks clause List.mem_cons_self _ node' _ fun node'' same' => ?_
      exact ih (fun clause mem => looks clause (List.mem_cons_of_mem _ mem)) node'' (same'.trans same)
  exact all looks node rfl

end Clause

namespace Standard
open Clause Script

theorem looks_nameContextValue : Looks nameContextValue := by
  intro P node next looks
  unfold nameContextValue
  split
  · trivial
  · split
    · trivial
    · exact looks_ofContextValue _ _ _ P node next looks

/-- The name of the effect that sets. -/
def setName : String := "set"

/-- The names of the local variables that a node sets, if it is of the effect that sets. -/
def namesSet (node : Node) : List String :=
  if node.name = setName then ((node.argument? 0).map Expr.assigned).getD [] else []

/-- A definition only looks, or it is the effect that sets. -/
inductive LooksOrSets (spec : DefinitionSpec) : Prop where
  | looks : spec.name.getD (spec.patterns.headD "") ≠ setName →
    (∀ node, (spec.decide node).Looks fun accepted => accepted.name = node.name) → LooksOrSets spec
  | sets : spec.category = .effect → spec.name = some setName → spec.decide = decision [declareArgument 0] →
    LooksOrSets spec

/-- An entry adds nothing but definitions that only look, or set. -/
def EntryLooksOrSets : Entry → Prop
  | .definition spec _ => LooksOrSets spec
  | .type _ | .converter .. => True

theorem looksOrSets_expression {name : String} {patterns : List String} {returns : String} {clauses : List Clause}
    {priority : Int} (other : name ≠ setName) (looks : ∀ clause ∈ clauses, Looks clause) :
    EntryLooksOrSets (expression name patterns returns clauses priority) :=
  .looks other (looks_decision looks)

theorem looksOrSets_line {category : Category} {name pattern : String} {clauses : List Clause}
    {values : List ContextValueSpec} (other : name ≠ setName) (looks : ∀ clause ∈ clauses, Looks clause) :
    EntryLooksOrSets (line category name pattern clauses values) :=
  .looks other (looks_decision looks)

/-- **Of the standard vocabulary only the effect that sets does more than look.** -/
theorem vocabulary_looksOrSets : ∀ entry ∈ vocabulary, EntryLooksOrSets entry := by
  have none : ∀ clause ∈ ([] : List Clause), Looks clause := fun _ mem => nomatch mem
  have one {clause : Clause} (looks : Looks clause) : ∀ clause' ∈ [clause], Looks clause' :=
    List.forall_mem_singleton.2 looks
  have zero (divides : Node → Bool) : ∀ clause ∈ [refuseZeroDivisor divides], Looks clause :=
    one (looks_rejecting _)
  simp only [vocabulary, typeEntries, expressions, conditions, effects, events, sections, List.forall_mem_append,
    List.forall_mem_cons]
  refine ⟨⟨⟨⟨⟨⟨?types, trivial, ?nil⟩, ?expressions⟩, ?conditions⟩, ?effects⟩, ?events⟩, ?sections⟩
  case types =>
    intro entry mem
    obtain ⟨spec, -, rfl⟩ := List.mem_map.1 mem
    trivial
  case expressions =>
    exact ⟨looksOrSets_expression (by decide) (zero _), looksOrSets_expression (by decide) none,
      looksOrSets_expression (by decide) none, looksOrSets_expression (by decide) (one (looks_rejecting _)),
      looksOrSets_expression (by decide) none, looksOrSets_expression (by decide) none,
      looksOrSets_expression (by decide) none, looksOrSets_expression (by decide) (one looks_nameContextValue),
      fun _ mem => nomatch mem⟩
  case conditions =>
    exact ⟨looksOrSets_line (by decide) (zero _), looksOrSets_line (by decide) none,
      looksOrSets_line (by decide) none, fun _ mem => nomatch mem⟩
  case effects =>
    exact ⟨looksOrSets_line (by decide) none, .sets rfl rfl rfl, looksOrSets_line (by decide) none,
      looksOrSets_line (by decide) none, fun _ mem => nomatch mem⟩
  case events =>
    exact ⟨looksOrSets_line (by decide) none, looksOrSets_line (by decide) (one (looks_rejecting _)),
      looksOrSets_line (by decide) none, looksOrSets_line (by decide) none, fun _ mem => nomatch mem⟩
  case sections =>
    exact ⟨looksOrSets_line (by decide) none, looksOrSets_line (by decide) none,
      looksOrSets_line (by decide) none, fun _ mem => nomatch mem⟩
  case nil => exact fun _ mem => nomatch mem

section Decide

variable {spec : DefinitionSpec} (h : LooksOrSets spec) (node : Node)

include h

/-- A definition declares what a node of it sets, and does nothing else. -/
theorem LooksOrSets.declares (named : node.name = spec.name.getD (spec.patterns.headD "")) :
    (spec.decide node).Declares namesSet [] := by
  cases h with
  | looks other looks =>
    refine (looks node).declares fun accepted same => ?_
    exact if_neg fun set => other (named.symm.trans (same.symm.trans set))
  | sets category name decides =>
    rw [decides]
    refine Action.declares_edits ?_
    have set : node.name = setName := by rw [named, name, Option.getD_some]
    rw [List.nil_append, namesSet, if_pos set]

theorem LooksOrSets.onlyLooks (inside : spec.category = .expression ∨ spec.category = .condition) :
    OnlyLooks spec.decide := by
  cases h with
  | looks other looks => exact fun node view => (looks node).verdict? view
  | sets category => simp [category] at inside

/-- Whatever its nodes are called, it declares some names and does nothing else. -/
theorem LooksOrSets.declaresSome : ∃ names declared, (spec.decide node).Declares names declared := by
  cases h with
  | looks other looks => exact ⟨fun _ => [], [], (looks node).declares fun _ _ => rfl⟩
  | sets category name decides =>
    rw [decides]
    exact ⟨fun _ => ((node.argument? 0).map Expr.assigned).getD [], [], Action.declares_edits rfl⟩

end Decide

section Registry

variable {config : Config} {r : Registry} (registered : registry config = .ok r)

include registered

theorem registry_config : r.config = config := by
  obtain ⟨b, rfl, -, settings, -⟩ := RegistryBuilder.builder_of_ofVocabulary registered
  exact settings

theorem registry_lawful : r.Lawful := by
  obtain ⟨b, rfl, reachable, -⟩ := RegistryBuilder.builder_of_ofVocabulary registered
  exact reachable.lawful

/-- The definitions of the standard registry only look, or set. -/
theorem registry_looksOrSets {d : Definition} (mem : d ∈ r.definitions) :
    ∃ spec, LooksOrSets spec ∧ d.Follows spec := by
  obtain ⟨b, rfl, -, -, described⟩ := RegistryBuilder.builder_of_ofVocabulary registered
  rcases described.definitions d mem with mem | ⟨spec, values, among, follows⟩
  · cases mem
  · exact ⟨spec, vocabulary_looksOrSets _ among, follows⟩

/-- **The definitions of the standard registry declare what a node sets**, and do nothing else. -/
theorem registry_onlyDeclares : r.OnlyDeclares namesSet where
  looks category inside x mem := by
    have of := registry_lawful registered category x mem
    obtain ⟨spec, looksOrSets, follows⟩ := registry_looksOrSets registered (List.mem_of_getElem? of.definition)
    rw [follows.decide]
    refine looksOrSets.onlyLooks ?_
    rwa [← follows.category, of.category]
  declares category x mem node named := by
    have of := registry_lawful registered category x mem
    obtain ⟨spec, looksOrSets, follows⟩ := registry_looksOrSets registered (List.mem_of_getElem? of.definition)
    rw [follows.decide]
    exact looksOrSets.declares node (named.trans follows.name)

/-- **With the standard registry every script is parsed to the end.** -/
theorem registry_parses (source : String) : ∃ s, r.parseScript source r.newContext = .ok s := by
  have calm : r.newContext.IsCalm := rfl
  refine parseScript_calm (fun category x mem node => ?_) calm source
  have among := List.mem_of_getElem? (registry_lawful registered category x mem).definition
  obtain ⟨spec, looksOrSets, follows⟩ := registry_looksOrSets registered among
  rw [follows.decide]
  obtain ⟨_, _, declares⟩ := looksOrSets.declaresSome node
  exact declares.neverCancels

/-- **Local variables and scopes follow the blocks.** In every script that is parsed with the standard vocabulary,
each row is parsed in a state that knows the blocks around it, and the local variables that are reported as not set
are those that an accepted row reads, and that neither this row sets nor one whose innermost block is still open. -/
theorem parseScript_locals (warns : config.warnUnsetLocals = true) (source : String) :
    ∃ s judged, r.parseScript source r.newContext = .ok s ∧ r.judgements source r.newContext = .ok judged ∧
      judged.map Judgement.row = rowsOf source ∧
      (∀ k n row, IsRow source k n row → ∃ c, r.ParsesRow source r.newContext judged k n row c ∧
        c.enclosing = (blocksAround (rowsOf source) n).filterMap (fun i => (nodeAt judged i).map Node.definition) ∧
        c.scopes.length = 1 + (blocksAround (rowsOf source) n).length) ∧
      s.diagnostics.filter isUnset =
        (List.range judged.length).flatMap fun j => (unsetReads namesSet judged j).map unsetWarning := by
  obtain ⟨s, parsed⟩ := registry_parses registered source
  have warns : r.config.warnUnsetLocals = true := by rw [registry_config registered, warns]
  obtain ⟨judged, judges, rows, states, reported⟩ :=
    Registry.parseScript_scoped (registry_onlyDeclares registered) warns rfl rfl parsed
  refine ⟨s, judged, parsed, judges, rows, fun k n row isRow => ?_, reported⟩
  obtain ⟨c, here, knows⟩ := states k n row isRow
  exact ⟨c, here, knows.enclosing, knows.scopes⟩

end Registry

/-- A script in which a local variable is set, and another one is read in a block within. -/
def localsSource : String :=
  "on script load:\n\tset \x7b_x\x7d to 1\n\tif true:\n\t\tprint \x7b_y\x7d"

/-- Two blocks are around its last row. -/
theorem parseScript_locals_within : ∃ r s judged, registry {} = .ok r ∧
    r.parseScript localsSource r.newContext = .ok s ∧ r.judgements localsSource r.newContext = .ok judged ∧
    (∃ c, r.ParsesRow localsSource r.newContext judged 3 3 ⟨4, 8, 3, "print \x7b_y\x7d".toList⟩ c ∧
      c.enclosing = [0, 2].filterMap (fun i => (nodeAt judged i).map Node.definition) ∧ c.scopes.length = 3) ∧
    s.diagnostics.filter isUnset =
      (List.range judged.length).flatMap fun j => (unsetReads namesSet judged j).map unsetWarning := by
  obtain ⟨r, registered, -⟩ := registry_printsStrings
  obtain ⟨s, judged, parsed, judges, -, states, reported⟩ := parseScript_locals registered rfl localsSource
  have isRow : IsRow localsSource 3 3 ⟨4, 8, 3, "print \x7b_y\x7d".toList⟩ :=
    ⟨⟨"\t\tprint \x7b_y\x7d".toList, by decide +kernel, by decide +kernel⟩, by decide +kernel⟩
  have around : blocksAround (rowsOf localsSource) 3 = [0, 2] := by decide +kernel
  have state := states 3 3 _ isRow
  rw [around] at state
  exact ⟨r, s, judged, registered, parsed, judges, state, reported⟩

end Standard

end Phrasebook
