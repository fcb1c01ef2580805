import Phrasebook.Proofs.Standard.Locals

/-!
# The values of assignments

A row that sets declares what it sets before the local variables are looked up that it reads. So of the local
variables in its value those are reported that were not declared before, unless the row itself sets them.
-/

namespace Phrasebook

/-- The local variables that a part of a tree reads. -/
def Part.localReads : Part → List (Span × String)
  | .expr e => e.localReads
  | .node n => n.localReads

/-- A local variable anywhere within a part of a tree is read by the part. -/
theorem Part.mem_localReads {name : String} {type : PatternType} {span : Span} {x : Part}
    (within : Part.Within (.expr (.var name true type span)) x) : (span, name) ∈ x.localReads := by
  induction within with
  | self => simp [localReads, Expr.localReads]
  | item among _ ih =>
    simp only [localReads, Expr.localReads, readsOfItems_eq] at ih ⊢
    exact List.mem_flatMap.2 ⟨_, among, ih⟩
  | inner _ ih =>
    simp only [localReads, Expr.localReads] at ih ⊢
    exact ih
  | node _ ih =>
    simp only [localReads, Expr.localReads] at ih ⊢
    exact ih
  | argument among _ ih =>
    simp only [localReads, Node.localReads_eq, readsOfArguments_eq] at ih ⊢
    exact List.mem_flatMap.2 ⟨_, List.mem_filterMap.2 ⟨_, among, rfl⟩, ih⟩

/-- An argument is among the arguments. -/
theorem Node.mem_of_argument? {n : Node} {index : Nat} {e : Expr} (there : n.argument? index = some e) :
    some e ∈ n.arguments := by
  unfold argument? at there
  rw [Option.join_eq_some_iff] at there
  exact List.mem_of_getElem? there

namespace Script

variable {names : Node → List String} {judged : List Judgement} {n : Nat} {c : Context} {source : String}

/-- The local variables that a node reads though a state does not declare them, nor does the node. -/
def unknownReads (names : Node → List String) (c : Context) (node : Node) : List (Span × String) :=
  node.localReads.filter fun read =>
    !c.isDeclared read.2 && !((names node).map Context.nameKey).contains (Context.nameKey read.2)

/-- The local variables of an accepted row that are reported are unknown to the state in which it is read. -/
theorem KnowsBlocks.unsetReads_eq (knows : KnowsBlocks names source judged n c) {node : Node}
    (accepted : nodeAt judged n = some node) : unsetReads names judged n = unknownReads names c node := by
  simp only [unsetReads, unknownReads, accepted, Option.map_some, Option.getD_some]
  refine List.filter_congr fun read _ => ?_
  rw [Bool.eq_iff_iff]
  simp [knows.declared, keysAt, accepted]

end Script

namespace Standard
open Script

section Registry

variable {config : Config} {r : Registry} (registered : registry config = .ok r)

include registered

/-- **The value of an assignment.** In every script that is parsed with the standard vocabulary, an accepted row
reports exactly the local variables in it that were not declared when it was read and that it does not set itself. So
of the local variables anywhere in the value of an assignment each is reported where it stands that was not declared
before, unless it is also what the assignment sets. -/
theorem parseScript_assignments (warns : config.warnUnsetLocals = true) (source : String) :
    ∃ s judged, r.parseScript source r.newContext = .ok s ∧ r.judgements source r.newContext = .ok judged ∧
      judged.map Judgement.row = rowsOf source ∧
      ∀ k n row, IsRow source k n row → ∃ c, r.ParsesRow source r.newContext judged k n row c ∧
        ∀ node, nodeAt judged n = some node →
          (∃ before after, s.diagnostics.filter isUnset =
            before ++ (unknownReads namesSet c node).map unsetWarning ++ after) ∧
          (node.name = setName → ∀ target value, node.argument? 0 = some target → node.argument? 1 = some value →
            ∀ name type span, Part.Within (.expr (.var name true type span)) (.expr value) →
              c.isDeclared name = false → Context.nameKey name ∉ target.assigned.map Context.nameKey →
                unsetWarning (span, name) ∈ s.diagnostics) := by
  obtain ⟨s, parsed⟩ := registry_parses registered source
  have warns : r.config.warnUnsetLocals = true := by rw [registry_config registered, warns]
  obtain ⟨judged, judges, rows, states, reported⟩ :=
    Registry.parseScript_scoped (registry_onlyDeclares registered) warns rfl rfl parsed
  refine ⟨s, judged, parsed, judges, rows, fun k n row isRow => ?_⟩
  obtain ⟨c, here, knows⟩ := states k n row isRow
  refine ⟨c, here, fun node accepted => ?_⟩
  have inside : n < judged.length := by
    have found := isRow.getElem?_rowsOf
    rw [← rows] at found
    rw [← List.length_map Judgement.row]
    exact (List.getElem?_eq_some_iff.1 found).1
  obtain ⟨first, last, split⟩ := List.append_of_mem (List.mem_range.2 inside)
  have report : ∃ before after, s.diagnostics.filter isUnset =
      before ++ (unknownReads namesSet c node).map unsetWarning ++ after := by
    rw [reported, split, List.flatMap_append, List.flatMap_cons, knows.unsetReads_eq accepted, ← List.append_assoc,
      ← List.append_assoc]
    exact ⟨_, _, rfl⟩
  refine ⟨report, fun sets target value assigned read name type span within undeclared other => ?_⟩
  obtain ⟨before, after, report⟩ := report
  have names : namesSet node = target.assigned := by
    rw [namesSet, if_pos sets, assigned, Option.map_some, Option.getD_some]
  have unknown : (span, name) ∈ unknownReads namesSet c node := by
    rw [← names] at other
    refine List.mem_filter.2 ⟨?_, by simp [undeclared, other]⟩
    exact Part.mem_localReads (.argument (Node.mem_of_argument? read) within)
  have among : unsetWarning (span, name) ∈ s.diagnostics.filter isUnset := by
    rw [report]
    exact List.mem_append_left _ (List.mem_append_right _ (List.mem_map_of_mem unknown))
  exact (List.mem_filter.1 among).1

end Registry

/-- A script that sets one local variable to another one. -/
def assignmentSource : String :=
  "set \x7b_x\x7d to \x7b_y\x7d"

/-- Its row reports what it reads and does not set. -/
theorem parseScript_assignments_row : ∃ r s judged c, registry {} = .ok r ∧
    r.parseScript assignmentSource r.newContext = .ok s ∧
    r.ParsesRow assignmentSource r.newContext judged 0 0 ⟨1, 0, 1, assignmentSource.toList⟩ c ∧
    ∀ node, nodeAt judged 0 = some node → ∃ before after, s.diagnostics.filter isUnset =
      before ++ (unknownReads namesSet c node).map unsetWarning ++ after := by
  obtain ⟨r, registered, -⟩ := registry_printsStrings
  obtain ⟨s, judged, parsed, -, -, states⟩ := parseScript_assignments registered rfl assignmentSource
  have isRow : IsRow assignmentSource 0 0 ⟨1, 0, 1, assignmentSource.toList⟩ :=
    ⟨⟨assignmentSource.toList, by decide +kernel, by decide +kernel⟩, by decide +kernel⟩
  obtain ⟨c, here, reports⟩ := states 0 0 _ isRow
  exact ⟨r, s, judged, c, registered, parsed, here, fun node accepted => (reports node accepted).1⟩

end Standard

end Phrasebook
