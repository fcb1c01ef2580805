import Phrasebook.Proofs.Parse.Segments
import Phrasebook.Proofs.Standard.Print

/-!
# Effects that accept their own text

An effect of words and slots for integers is registered next to the standard types. Its own text, with an integer in
the place of each slot, is then parsed as the effect, and the integers are its arguments. The words may hold any
letters but one: the small form of the capital `İ` has two letters, of which no line that holds the capital has either.
-/

namespace Phrasebook

namespace RegistryBuilder
open Pattern

/-- The definition of an effect with one pattern, if it is the first definition of all. -/
def firstEffect (source : String) (p : Pattern) (priority : Int) : Definition where
  id := 0
  name := source
  category := .effect
  patterns := [p]
  priority := priority
  returns := none
  decide := .accept

variable {b : RegistryBuilder} {source : String} {p : Pattern}

/-- The first definition of all is ambiguous with none. -/
theorem register_first (empty : b.definitions = []) (compiled : Pattern.compile b.resolve source = .ok p)
    (priority : Int) :
    b.register { category := .effect, patterns := [source], priority } =
      .ok ({ b with definitions := [firstEffect source p priority] }, 0) := by
  have alone : b.ambiguitiesOf .effect priority p = [] := by
    simp [ambiguitiesOf, rival?, empty]
  have patterns : [source].mapM (Pattern.compile b.resolve) = .ok [p] := by
    rw [List.mapM_cons, compiled]
    rfl
  unfold register
  simp only [patterns, bind, Except.bind, List.flatMap_singleton, alone, permit, returnType, empty, List.nil_append,
    List.append_nil]
  rfl

/-- Where one effect is all that is defined, its pattern is the only candidate. -/
theorem candidates_first {priority : Int} (only : b.definitions = [firstEffect source p priority]) :
    b.build.candidates .effect = [⟨firstEffect source p priority, 0, p⟩] ∧ b.build.candidates .expression = [] := by
  have effects : b.patternsOf .effect = [⟨firstEffect source p priority, 0, p⟩] := by
    rw [patternsOf, only]
    rfl
  have expressions : b.patternsOf .expression = [] := by
    rw [patternsOf, only]
    rfl
  rw [candidates_build, candidates_build, effects, expressions]
  exact ⟨List.mergeSort_singleton _, List.mergeSort_nil⟩

end RegistryBuilder

namespace Standard
open Text Pattern Parse

/-- A builder has integers as its third type, and no definitions. -/
structure HasIntegers (b : RegistryBuilder) : Prop where
  empty : b.definitions.isEmpty = true
  resolves : b.resolve "integer" = some (.one 2)
  entry : (b.types.table.entry? 2).map (fun entry => (entry.spec.name, entry.spec.universal)) = some ("integer", false)

instance (b : RegistryBuilder) : Decidable (HasIntegers b) :=
  decidable_of_iff
    (b.definitions.isEmpty = true ∧ b.resolve "integer" = some (.one 2) ∧
      (b.types.table.entry? 2).map (fun entry => (entry.spec.name, entry.spec.universal)) = some ("integer", false))
    ⟨fun ⟨empty, resolves, entry⟩ => ⟨empty, resolves, entry⟩, fun ⟨empty, resolves, entry⟩ => ⟨empty, resolves, entry⟩⟩

/-- The standard types are registered to their end, and integers are among them. -/
theorem addAll_hasIntegers :
    ((RegistryBuilder.withConfig {}).addAll typeEntries).2 = none ∧
      HasIntegers ((RegistryBuilder.withConfig {}).addAll typeEntries).1 := by
  decide +kernel

/-- The standard type of integers reads integers. -/
theorem literal_of_integer {spec : TypeSpec} (standard : spec ∈ types) (name : spec.name = "integer") :
    spec.literal = some Literal.integer? := by
  have only : (types.filter fun spec => spec.name = "integer").map TypeSpec.literal = [some Literal.integer?] := rfl
  have among : spec.literal ∈ (types.filter fun spec => spec.name = "integer").map TypeSpec.literal :=
    List.mem_map_of_mem (List.mem_filter.2 ⟨standard, by simp [name]⟩)
  rw [only] at among
  exact List.mem_singleton.1 among

/-- A registry of the standard types without expressions reads integers. -/
theorem HasIntegers.readsIntegers {b b' : RegistryBuilder} (has : HasIntegers b)
    (extends_ : (RegistryBuilder.withConfig {}).Extends typeEntries b) (types : b'.types = b.types)
    (plain : b'.build.candidates .expression = []) : b'.build.ReadsIntegers 2 where
  integer := by
    obtain ⟨entry, found, shape⟩ := Option.map_eq_some_iff.1 has.entry
    simp only [Prod.mk.injEq] at shape
    have standard := spec_mem_types rfl extends_ (Array.mem_of_getElem? found)
    refine ⟨entry, ?_, shape.2, literal_of_integer standard shape.1⟩
    show b'.types.table.entry? 2 = some entry
    rw [types, found]
  minus := by
    show Unread b'.types.table "-"
    rw [types]
    exact fun entry mem => Literal.read?_minus (spec_mem_types rfl extends_ mem)
  plain := plain

open Segment in
/-- The effect of some segments is registered, and accepts the line of the segments. -/
theorem HasIntegers.parse {b : RegistryBuilder} (has : HasIntegers b)
    (extends_ : (RegistryBuilder.withConfig {}).Extends typeEntries b) {segments : List Segment} (some_ : segments ≠ [])
    (plain : ∀ s ∈ segments, s.IsPlain) (undotted : ∀ text, word text ∈ segments → '\u0130' ∉ text) (priority : Int)
    {c : Context} (calm : c.cancellation = {}) (idle : c.trials = []) (room : c.depth < c.maxDepth) :
    ∃ b' node,
      b.register { category := .effect, patterns := [String.ofList (patternOf segments)], priority } = .ok (b', 0) ∧
      (b'.build.parseLine .effect (String.ofList (lineOf segments)) c).1 = .ok node ∧
      node.category = .effect ∧ node.definition = 0 ∧ node.name = String.ofList (patternOf segments) ∧
      Match.IntegersFill (IsInteger 2) (integersOf segments) node.arguments := by
  -- the pattern is compiled, and the line matched, phrase by phrase
  have merged := merged_merge plain
  have pattern : patternOf (merge segments) = patternOf segments := join_merge (fun _ => rfl) segments
  have line : lineOf (merge segments) = lineOf segments := join_merge (fun _ => rfl) segments
  have integers : integersOf (merge segments) = integersOf segments := integers_merge segments
  have undotted : ∀ text, word text ∈ merge segments → '\u0130' ∉ text := by
    intro text mem inside
    rcases mem_of_mem_merge mem inside with space | ⟨a, among, here⟩
    · exact absurd space (by decide)
    · exact undotted a among here
  obtain ⟨p, compiled, root, slots, takes⟩ := compile_segments has.resolves (merge_ne_nil some_) merged
  rw [pattern] at compiled
  let effect := RegistryBuilder.firstEffect (String.ofList (patternOf segments)) p priority
  let b' : RegistryBuilder := { b with definitions := [effect] }
  have registered := RegistryBuilder.register_first (List.isEmpty_iff.1 has.empty) compiled priority
  obtain ⟨effects, expressions⟩ := RegistryBuilder.candidates_first (b := b') rfl
  have isSegments : Candidate.IsSegments ⟨effect, 0, p⟩ (merge segments) 2 :=
    ⟨compile_sound compiled, root, slots, takes, rfl⟩
  have reads : b'.build.ReadsIntegers 2 := has.readsIntegers extends_ rfl expressions
  have deep : c.remainingDepth = (c.maxDepth - c.depth - 1) + 1 := by
    unfold Context.remainingDepth
    omega
  obtain ⟨node, filled, parsed⟩ := Registry.parseLine_segments reads effects isSegments (merge_ne_nil some_) merged
    undotted deep calm idle
  rw [line] at parsed
  rw [integers] at filled
  exact ⟨b', node, registered, parsed, filled.category, filled.definition, filled.name, filled.arguments⟩

open Segment in
/-- **An effect accepts its own text.** Next to the standard types, a pattern of words and slots for integers is
registered, and the same words with an integer in the place of each slot are parsed as the effect with the integers as
its arguments. -/
theorem parse_own_text {segments : List Segment} (some_ : segments ≠ []) (plain : ∀ s ∈ segments, s.IsPlain)
    (undotted : ∀ text, word text ∈ segments → '\u0130' ∉ text) (priority : Int) {c : Context}
    (calm : c.cancellation = {}) (idle : c.trials = []) (room : c.depth < c.maxDepth) :
    ∃ b b' type node, (RegistryBuilder.withConfig {}).addAll typeEntries = (b, none) ∧
      b.resolve "integer" = some (.one type) ∧
      b.register { category := .effect, patterns := [String.ofList (patternOf segments)], priority } = .ok (b', 0) ∧
      (b'.build.parseLine .effect (String.ofList (lineOf segments)) c).1 = .ok node ∧
      node.category = .effect ∧ node.definition = 0 ∧ node.name = String.ofList (patternOf segments) ∧
      Match.IntegersFill (IsInteger type) (integersOf segments) node.arguments := by
  obtain ⟨complete, has⟩ := addAll_hasIntegers
  have extends_ := RegistryBuilder.addAll_extends (RegistryBuilder.withConfig {}) typeEntries
  obtain ⟨b', node, registered, parsed⟩ := has.parse extends_ some_ plain undotted priority calm idle room
  exact ⟨_, b', 2, node, Prod.ext rfl complete, has.resolves, registered, parsed⟩

open Segment in
/-- Words next to each other, slots next to each other, a capital letter and a negative integer. -/
theorem parse_own_text_move :
    ∃ b b' type node, (RegistryBuilder.withConfig {}).addAll typeEntries = (b, none) ∧
      b.resolve "integer" = some (.one type) ∧
      b.register { category := .effect, patterns := ["Move %integer% %integer% to row %integer%"] } = .ok (b', 0) ∧
      (b'.build.parseLine .effect "Move 64 -3 to row 0" {}).1 = .ok node ∧
      node.category = .effect ∧ node.definition = 0 ∧ node.name = "Move %integer% %integer% to row %integer%" ∧
      Match.IntegersFill (IsInteger type) [64, -3, 0] node.arguments := by
  let segments : List Segment :=
    [word "Move".toList, integer 64, integer (-3), word "to".toList, word "row".toList, integer 0]
  have pattern : String.ofList (patternOf segments) = "Move %integer% %integer% to row %integer%" := by decide
  have line : String.ofList (lineOf segments) = "Move 64 -3 to row 0" := by decide +kernel
  have plain : ∀ s ∈ segments, s.IsPlain := by
    decide
  have undotted : ∀ text, word text ∈ segments → '\u0130' ∉ text := by
    simp [segments]
  have parsed := @parse_own_text segments (List.cons_ne_nil _ _) plain undotted defaultPriority {} rfl rfl (by decide)
  rw [pattern, line] at parsed
  exact parsed

end Standard

end Phrasebook
