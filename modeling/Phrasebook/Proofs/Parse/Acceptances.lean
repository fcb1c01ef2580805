import Phrasebook.Proofs.Parse.Bounds
import Phrasebook.Proofs.Parse.WellTyped

/-!
# Whose changes a line leaves behind

The changes that a line leaves behind are those of decisions that accepted a node. Every node of the tree that
is returned is among these, but there may be others: while the pattern of a candidate is matched, an expression
may be read for a placeholder that ends elsewhere in the end, and a node may not fit where it was read. Nothing
takes back what their decisions have done, if the candidate is accepted after all (`parseLine_left`). Only if
the decisions about expressions and conditions change nothing, nothing survives but what the decision about the
line itself has done.
-/

namespace Phrasebook
open Text Pattern Match Parse

/-- A node that was accepted, with the changes that its decision has left behind. -/
structure Acceptance where
  candidate : Candidate
  /-- the node as it was matched -/
  matched : Node
  accepted : Node
  changes : List Edit

/-- While a line was parsed, a candidate of the registry matched, accepted the node, and left the changes
behind. -/
structure Acceptance.Genuine (r : Registry) (line : Nat) (a : Acceptance) : Prop where
  registered : ∃ category, a.candidate ∈ r.candidates category
  matched : ∃ found span, span.line = line ∧ a.matched = nodeOf a.candidate found span
  decided : ∃ levels c c', c.line = line ∧ c.Leaves a.changes c' ∧
    carryOut r (r.reader levels) (a.candidate.definition.decide a.matched) c = (.ok a.accepted, c')

/-- Every node of a part of a tree was accepted. -/
def Logged (log : List Acceptance) (part : Part) : Prop :=
  ∀ n, (Part.node n).Within part → ∃ a ∈ log, a.accepted = n

/-- No definition of a registry makes up parts of a node that it accepts. -/
def Registry.KeepsMatches (r : Registry) : Prop :=
  ∀ category, ∀ x ∈ r.candidates category, Phrasebook.KeepsMatches x.definition.decide

/-- A definition looks at its surroundings, but changes nothing, and has no text parsed. -/
def OnlyLooks (decide : Node → Action) : Prop :=
  ∀ node view, ((decide node).verdict? view).isSome

theorem onlyLooks_accept : OnlyLooks .accept :=
  fun _ _ => rfl

/-- The expressions and conditions of a registry only look. -/
def Registry.LooksInside (r : Registry) : Prop :=
  ∀ category, category = .expression ∨ category = .condition →
    ∀ x ∈ r.candidates category, OnlyLooks x.definition.decide

namespace Acceptance

variable {α : Type} {l : Ledger α} {r : Registry} {line : Nat}

/-- Carrying out a decision leaves some changes behind, if reading texts does. -/
theorem exists_leaves {read : Reader} (books : l.BooksReader read) (action : Action) {c : Context}
    (here : l.Here c) : ∃ edits, c.Leaves edits (carryOut r read action c).2 := by
  induction action generalizing c with
  | accept | reject => exact ⟨[], .refl c⟩
  | look next ih => exact ih (r.view c) here
  | edit change next ih =>
    have changed := Context.Leaves.edit change c
    obtain ⟨edits, leaves⟩ := ih (l.stays changed.setting here)
    exact ⟨change :: edits, changed.trans leaves⟩
  | parse text types next ih =>
    have left : ∃ edits, c.Leaves edits (readText r read text types c).2 := by
      obtain ⟨log, c₁, leaves, ⟨e, result, -⟩ | ⟨fault, result⟩⟩ := Ledger.readText_books r books text types here
      · rw [result, warnUnset_eq]
        exact ⟨_, leaves.trans (.edited _ c₁)⟩
      · rw [result]
        exact ⟨_, leaves⟩
    obtain ⟨edits, leaves⟩ := left
    obtain ⟨edits', leaves'⟩ := ih (readText r read text types c).1 (l.stays leaves.setting here)
    exact ⟨edits ++ edits', leaves.trans leaves'⟩

/-- A decision that accepts a node makes an acceptance of it. -/
theorem exists_genuine {levels : Nat} (books : l.BooksReader (r.reader levels)) {category : Category}
    {x : Candidate} (mem : x ∈ r.candidates category) (found : Found Expr) {span : Span}
    (onLine : span.line = line) {c : Context} (here : l.Here c) (inLine : c.line = line) :
    ∃ edits,
      c.Leaves edits (carryOut r (r.reader levels) (x.definition.decide (nodeOf x found span)) c).2 ∧
      ∀ node, (carryOut r (r.reader levels) (x.definition.decide (nodeOf x found span)) c).1 = .ok node →
        ∃ a : { a : Acceptance // a.Genuine r line },
          a.1.candidate = x ∧ a.1.accepted = node ∧ a.1.changes = edits := by
  obtain ⟨edits, leaves⟩ := exists_leaves books (x.definition.decide (nodeOf x found span)) here
  refine ⟨edits, leaves, fun node accepted => ?_⟩
  have genuine : Genuine r line
      { candidate := x, matched := nodeOf x found span, accepted := node, changes := edits } :=
    { registered := ⟨category, mem⟩
      matched := ⟨found, span, onLine, rfl⟩
      decided := ⟨levels, c, _, inLine, leaves, Prod.ext accepted rfl⟩ }
  exact ⟨⟨_, genuine⟩, rfl, rfl, rfl⟩

/-- Nothing is booked. -/
def nothing (line : Nat) : Ledger Empty where
  Here c := c.line = line
  Stands span := span.line = line
  edits := Empty.elim
  Covers _ _ := True
  CoversNode _ _ := True
  stays same here := Context.line_of_setting same here
  stands _ here := here
  mono _ _ := trivial
  literal _ _ _ := trivial
  var _ _ _ _ := trivial
  list _ _ _ _ := trivial
  node _ _ := trivial
  converted _ _ _ := trivial

/-- If expressions and conditions change nothing, reading them leaves nothing behind. -/
theorem reader_nothing (looks : r.LooksInside) (levels : Nat) :
    (nothing line).BooksReader (r.reader levels) := by
  refine Ledger.reader_books (fun levels _ category inside x mem => ?_) levels
  intro found span before c _ _ _
  obtain ⟨verdict, decided⟩ :=
    Option.isSome_iff_exists.1 (looks category inside x mem (nodeOf x found span) (r.view c))
  rw [carryOut_verdict decided]
  exact ⟨[], .refl c, fun node _ => ⟨[], rfl, trivial⟩⟩

variable (r line)

/-- The ledger with one entry for each node that was accepted. -/
def ledger : Ledger { a : Acceptance // a.Genuine r line } where
  Here c := c.line = line
  Stands span := span.line = line
  edits a := a.1.changes
  Covers log e := r.KeepsMatches → Logged (log.map Subtype.val) (.expr e)
  CoversNode log n :=
    (∃ inner root, log = inner ++ [root] ∧ root.1.accepted = n) ∧
      (r.KeepsMatches → Logged (log.map Subtype.val) (.node n))
  stays same here := Context.line_of_setting same here
  stands _ here := here
  mono {log log' e} subset covers keeps n within := by
    obtain ⟨a, mem, same⟩ := covers keeps n within
    exact ⟨a, List.map_subset _ subset mem, same⟩
  literal value type _ _ n within := by cases within
  var name isLocal type _ _ n within := by cases within
  list conjunction type _ covers keeps n within := by
    cases within with
    | item among within => exact covers _ among keeps n within
  node type covers keeps n within := by
    cases within with
    | node within => exact covers.2 keeps n within
  converted path type covers keeps n within := by
    cases within with
    | inner within => exact covers keeps n within

variable {r line}

/-- A single entry has the changes of its acceptance. -/
theorem edits_singleton (a : { a : Acceptance // a.Genuine r line }) :
    [a].flatMap (ledger r line).edits = a.1.changes := by
  rw [List.flatMap_singleton]
  rfl

/-- **A decision that accepts a node is booked with its changes**, whatever it does on the way. -/
theorem booksDecision {levels : Nat} (books : (ledger r line).BooksReader (r.reader levels))
    {category : Category} {x : Candidate} (mem : x ∈ r.candidates category) :
    (ledger r line).BooksDecision r (r.reader levels) x := by
  intro found span before c onLine here covers
  obtain ⟨edits, leaves, accepts⟩ := exists_genuine books mem found onLine here here
  refine ⟨edits, leaves, fun node accepted => ?_⟩
  obtain ⟨root, -, same, changes⟩ := accepts node accepted
  refine ⟨[root], (edits_singleton root).trans changes, ⟨before, root, rfl, same⟩,
    fun keeps n within => ?_⟩
  rw [List.map_append]
  cases within with
  | self => exact ⟨root.1, List.mem_append_right _ List.mem_cons_self, same⟩
  | argument among within =>
    -- the node has the arguments of the match, and they were read before
    obtain ⟨returns, kept⟩ :=
      carryOut_accepts (keeps category x mem (nodeOf x found span)) (Prod.ext accepted rfl)
    have arguments : node.arguments = found.arguments := by
      rw [kept]
      rfl
    rw [arguments] at among
    obtain ⟨b, mem, same⟩ := covers _ among keeps n within
    exact ⟨b, List.mem_append_left _ mem, same⟩

/-- What a candidate leaves behind belongs to acceptances, the last of which is that of its node. -/
theorem tryCandidate_books (levels : Nat) (text : Line) (start stop : Nat) {category : Category}
    {x : Candidate} (mem : x ∈ r.candidates category) :
    (ledger r line).Books (tryCandidate r (r.reader levels) text start stop x)
      (Ledger.OnAccepted (ledger r line).CoversNode) := by
  have books : (ledger r line).BooksReader (r.reader levels) :=
    Ledger.reader_books (fun _ books _ _ _ mem => booksDecision books mem) levels
  have matches_ := Ledger.matchCandidate_books books text start stop x
  exact Ledger.tryCandidate_books matches_ (booksDecision books mem)

/-- If expressions and conditions change nothing, what a candidate leaves behind belongs to the acceptance of
its node. -/
theorem tryCandidate_alone (looks : r.LooksInside) (levels : Nat) (text : Line) (start stop : Nat)
    {category : Category} {x : Candidate} (mem : x ∈ r.candidates category) :
    (ledger r line).Books (tryCandidate r (r.reader levels) text start stop x)
      (Ledger.OnAccepted fun log node => ∃ root, log = [root] ∧ root.1.accepted = node) := by
  have books : (nothing line).BooksReader (r.reader levels) := reader_nothing looks levels
  refine Ledger.tryCandidate_books (A := fun log _ => log = []) ?_ ?_
  · refine (Ledger.matchCandidate_books books text start stop x).transfer (fun _ here => here) fun result log _ => ?_
    have empty : log = [] := List.eq_nil_iff_forall_not_mem.2 fun entry => entry.elim
    refine ⟨[], by rw [empty]; rfl, ?_⟩
    cases result with
    | error => trivial
    | ok => exact fun _ _ => rfl
  · intro found span before c onLine here none
    obtain ⟨edits, leaves, accepts⟩ := exists_genuine books mem found onLine here here
    refine ⟨edits, leaves, fun node accepted => ?_⟩
    obtain ⟨root, -, same, changes⟩ := accepts node accepted
    refine ⟨[root], (edits_singleton root).trans changes, root, ?_, same⟩
    rw [none, List.nil_append]

end Acceptance

/-- What the call for a line has left behind are the changes of some acceptances, and then the warnings about
the local variables of the node that are not set. -/
structure LeftBy (r : Registry) (log : List Acceptance) (node : Node) (c c' : Context) : Prop where
  genuine : ∀ a ∈ log, a.Genuine r c.line
  diagnostics : c'.diagnostics = c.diagnostics ++
    (log.flatMap Acceptance.changes).filterMap Edit.report? ++ unsetWarnings r node.localReads c'
  scopes : c'.scopes = (c.edited (log.flatMap Acceptance.changes)).scopes

section Line

variable {r : Registry} {category : Category} {text : String} {c c' : Context} {node : Node}

/-- The ledger of acceptances says what a line leaves behind. -/
theorem leftBy_of_leaves {log : List { a : Acceptance // a.Genuine r c.line }} {c₁ : Context}
    (leaves : { c with nearMisses := [] }.Leaves (log.flatMap (Acceptance.ledger r c.line).edits) c₁) :
    LeftBy r (log.map Subtype.val) node c (warnUnset r node.localReads c₁) := by
  have changes : (log.map Subtype.val).flatMap Acceptance.changes =
      log.flatMap (Acceptance.ledger r c.line).edits := by
    rw [List.flatMap_map]
    rfl
  have warned := warnUnset_eq r node.localReads c₁
  refine ⟨fun a mem => ?_, ?_, ?_⟩
  · obtain ⟨entry, -, rfl⟩ := List.mem_map.1 mem
    exact entry.2
  · rw [unsetWarnings_warnUnset, warned, Context.diagnostics_edited, Edit.filterMap_report?, leaves.diagnostics,
      Context.diagnostics_edited, changes]
  · rw [scopes_warnUnset, leaves.scopes, changes]
    exact Context.scopes_edited (c := { c with nearMisses := [] }) (d := c) rfl _

/-- **Whose changes a line leaves behind.** They belong to decisions that accepted a node, the last of which
is the node of the line. All nodes of the tree are among these, if no decision makes up parts of a node. If the
decisions about expressions and conditions change nothing, the node of the line is alone. -/
theorem parseLine_left (parsed : r.parseLine category text c = (.ok node, c')) :
    (∃ inner root, LeftBy r (inner ++ [root]) node c c' ∧ root.accepted = node ∧
      (r.KeepsMatches → Logged (inner ++ [root]) (.node node))) ∧
    (r.LooksInside → ∃ root, LeftBy r [root] node c c' ∧ root.accepted = node) := by
  constructor
  · obtain ⟨log, c₁, leaves, -, ⟨⟨inner, root, rfl, same⟩, logged⟩, rfl⟩ :=
      Ledger.parseLine_ok (l := Acceptance.ledger r c.line)
        (fun start stop x mem => Acceptance.tryCandidate_books _ _ start stop mem) rfl parsed
    have left : LeftBy r ((inner ++ [root]).map Subtype.val) node c _ := leftBy_of_leaves leaves
    rw [List.map_append] at left logged
    exact ⟨_, root.1, left, same, logged⟩
  · intro looks
    obtain ⟨log, c₁, leaves, -, ⟨root, rfl, same⟩, rfl⟩ :=
      Ledger.parseLine_ok (l := Acceptance.ledger r c.line)
        (fun start stop x mem => Acceptance.tryCandidate_alone looks _ _ start stop mem) rfl parsed
    have left : LeftBy r ([root].map Subtype.val) node c _ := leftBy_of_leaves leaves
    exact ⟨root.1, left, same⟩

/-- A vocabulary in which something is sent to something, and every expression is reported that is read. -/
def deliveries : List Entry :=
  [.type { name := "number", plural := "numbers", literal := some fun s =>
      if s == "1" then some (.int 1) else none },
    .definition { category := .effect, patterns := ["send %number% to %number%"] },
    .definition
      { category := .expression, patterns := ["alpha [both:to beta]"], returns := some "number",
        decide := fun node =>
          .edits [.report (.warning node.span .other (if node.tags == [] then "one" else "both"))]
            (.accept node) }]

/-- The tags of the nodes among the arguments of a node. -/
def tagsOfArguments (node : Node) : List (List String) :=
  node.arguments.filterMap fun
    | some (.node n _ _) => some n.tags
    | _ => none

/-- What was read in vain is reported nevertheless: one word was, but the node in the tree has both. In another
vocabulary nothing is read in vain that leaves something behind. -/
theorem parseLine_left_deliveries :
    (let r := ((RegistryBuilder.withConfig {}).addAll deliveries).1.build
    ∃ node c' inner root, r.parseLine .effect "send alpha to beta to 1" {} = (.ok node, c') ∧
      LeftBy r (inner ++ [root]) node {} c' ∧ Logged (inner ++ [root]) (.node node) ∧
      tagsOfArguments node = [["both"]] ∧ c'.diagnostics.map (·.message) = ["one", "both"]) ∧
    (let r := ((RegistryBuilder.withConfig {}).addAll sums).1.build
    ∃ node c' root, r.parseLine .effect "print 1 + 1" {} = (.ok node, c') ∧
      LeftBy r [root] node {} c' ∧ root.accepted = node) := by
  constructor
  · intro r
    have parses : (r.parseLine .effect "send alpha to beta to 1" {}).1.toOption.map tagsOfArguments =
        some [["both"]] := by decide +kernel
    have reports : (r.parseLine .effect "send alpha to beta to 1" {}).2.diagnostics.map (·.message) =
        ["one", "both"] := by decide +kernel
    have keeps : r.KeepsMatches := RegistryBuilder.candidates_decides (P := KeepsMatches)
      (by simp [deliveries, Entry.Decides, keepsMatches_accept, keepsMatches_edits])
    cases parsed : r.parseLine .effect "send alpha to beta to 1" {} with
    | mk result c' =>
      rw [parsed] at parses reports
      cases result with
      | error => simp [Except.toOption] at parses
      | ok node =>
        obtain ⟨⟨inner, root, left, -, logged⟩, -⟩ := parseLine_left parsed
        exact ⟨node, c', inner, root, rfl, left, logged keeps, Option.some.inj parses, reports⟩
  · intro r
    have parses : (r.parseLine .effect "print 1 + 1" {}).1.toOption.isSome = true := by decide +kernel
    have looks : r.LooksInside := fun category _ =>
      RegistryBuilder.candidates_decides (P := OnlyLooks)
        (by simp [sums, Entry.Decides, onlyLooks_accept]) category
    cases parsed : r.parseLine .effect "print 1 + 1" {} with
    | mk result c' =>
      rw [parsed] at parses
      cases result with
      | error => simp [Except.toOption] at parses
      | ok node =>
        obtain ⟨-, alone⟩ := parseLine_left parsed
        obtain ⟨root, left, same⟩ := alone looks
        exact ⟨node, c', root, rfl, left, same⟩

end Line

end Phrasebook
