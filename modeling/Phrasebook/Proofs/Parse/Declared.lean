import Phrasebook.Proofs.Parse.Acceptances

/-!
# Lines that declare names

In some vocabularies an accepted node declares names and its decision does nothing else, and expressions and
conditions do not even do that. Then a line that is parsed declares the names of its node, and reports those
local variables that are not declared then; nothing remains of what was tried before.
-/

namespace Phrasebook
open Text Match Parse

/-- A decision declares the names of every node that it accepts and does nothing else. Some of them were declared
before. -/
def Action.Declares (names : Node → List String) : List String → Action → Prop
  | declared, .accept node => declared = names node
  | _, .reject _ => True
  | declared, .look next => ∀ view, (next view).Declares names declared
  | declared, .edit (.declare name) next => next.Declares names (declared ++ [name])
  | _, .edit _ _ => False
  | _, .parse _ _ _ => False

/-- The definitions of a registry declare the names of the nodes that they accept and do nothing else, and those
of its expressions and conditions only look. -/
structure Registry.OnlyDeclares (r : Registry) (names : Node → List String) : Prop where
  looks : r.LooksInside
  declares (category : Category) : ∀ x ∈ r.candidates category, ∀ node : Node,
    node.name = x.definition.name → (x.definition.decide node).Declares names []

namespace Parse

variable {r : Registry} {names : Node → List String}

/-- What a decision leaves behind that only declares names. -/
theorem carryOut_declares {read : Reader} {action : Action} {declared : List String}
    (declares : action.Declares names declared) {c c' : Context} (left : c.Leaves (declared.map .declare) c') :
    ∃ edits, c.Leaves edits (carryOut r read action c').2 ∧
      ∀ node, (carryOut r read action c').1 = .ok node → edits = (names node).map .declare := by
  induction action generalizing declared c' with
  | accept node =>
    refine ⟨_, left, fun node' accepted => ?_⟩
    cases accepted
    rw [show declared = names node from declares]
  | reject reason =>
    exact ⟨_, left, fun _ accepted => nomatch accepted⟩
  | look next ih => exact ih (r.view c') (declares (r.view c')) left
  | edit change next ih =>
    cases change with
    | declare name =>
      refine ih declares ?_
      rw [List.map_append]
      exact left.trans (.edit (.declare name) c')
    | report | pushScope | popScope | cancel => exact declares.elim
  | parse => exact declares.elim

/-- The ledger with one entry for each node, whose names are declared. -/
def declarations (names : Node → List String) (line : Nat) : Ledger Node where
  Here c := c.line = line
  Stands span := span.line = line
  edits node := (names node).map .declare
  Covers _ _ := True
  CoversNode _ _ := True
  stays same here := Context.line_of_setting same here
  stands _ here := here
  mono _ _ := trivial
  literal _ _ _ := trivial
  var _ _ _ _ := trivial
  list _ _ _ _ := trivial
  node _ _ := trivial
  converted _ _ _ := trivial

/-- What a candidate leaves behind is the names of its node. -/
theorem tryCandidate_declares (only : r.OnlyDeclares names) (line levels : Nat) (text : Line) (start stop : Nat)
    {category : Category} {x : Candidate} (mem : x ∈ r.candidates category) :
    (declarations names line).Books (tryCandidate r (r.reader levels) text start stop x)
      (Ledger.OnAccepted fun log node => log = [node]) := by
  have books : (Acceptance.nothing line).BooksReader (r.reader levels) :=
    Acceptance.reader_nothing only.looks levels
  refine Ledger.tryCandidate_books (A := fun log _ => log = []) ?_ ?_
  · refine (Ledger.matchCandidate_books books text start stop x).transfer (fun _ here => here) fun result log _ => ?_
    have empty : log = [] := List.eq_nil_iff_forall_not_mem.2 fun entry => entry.elim
    refine ⟨[], by rw [empty]; rfl, ?_⟩
    cases result with
    | error => trivial
    | ok => exact fun _ _ => rfl
  · intro found span before c _ _ none
    have declares := only.declares category x mem (nodeOf x found span) rfl
    obtain ⟨edits, leaves, accepts⟩ := carryOut_declares declares (.refl c)
    refine ⟨edits, leaves, fun node accepted => ⟨[node], ?_, ?_⟩⟩
    · rw [accepts node accepted]
      exact List.flatMap_singleton _ _
    · rw [none, List.nil_append]

end Parse

/-- What a line leaves behind that was parsed as a node: the names of the node are declared, and the local variables
are reported that are not declared then. -/
structure Declared (r : Registry) (names : Node → List String) (node : Node) (c c' : Context) : Prop where
  setting : c'.setting = c.setting
  scopes : c'.scopes = (c.edited ((names node).map .declare)).scopes
  diagnostics : c'.diagnostics = c.diagnostics ++ unsetWarnings r node.localReads c'

/-- Declaring names reports nothing. -/
theorem filterMap_report?_declare (names : List String) :
    (names.map Edit.declare).filterMap Edit.report? = [] := by
  rw [List.filterMap_map]
  exact List.filterMap_eq_nil_iff.2 fun _ _ => rfl

/-- **A line that is parsed declares the names of its node**, and reports what is not declared then. -/
theorem parseLine_declared {r : Registry} {names : Node → List String} (only : r.OnlyDeclares names)
    {category : Category} {text : String} {c c' : Context} {node : Node}
    (parsed : r.parseLine category text c = (.ok node, c')) : Declared r names node c c' := by
  obtain ⟨log, c₁, leaves, -, rfl, rfl⟩ := Ledger.parseLine_ok (l := declarations names c.line)
    (fun start stop x mem => tryCandidate_declares only _ _ _ start stop mem) rfl parsed
  have changes : [node].flatMap (declarations names c.line).edits = (names node).map .declare :=
    List.flatMap_singleton _ _
  rw [changes] at leaves
  have warned := warnUnset_eq r node.localReads c₁
  refine ⟨?_, ?_, ?_⟩
  · rw [warned]
    exact (Context.Leaves.edited _ c₁).setting.trans leaves.setting
  · rw [scopes_warnUnset, leaves.scopes]
    exact Context.scopes_edited (c := { c with nearMisses := [] }) (d := c) rfl _
  · rw [unsetWarnings_warnUnset, warned, Context.diagnostics_edited, Edit.filterMap_report?, leaves.diagnostics,
      Context.diagnostics_edited, filterMap_report?_declare, List.append_nil]

end Phrasebook
