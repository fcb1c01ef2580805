import Phrasebook.Proofs.Decision
import Phrasebook.Proofs.Parse.Booked
import Phrasebook.Vocabulary

/-!
# Bounds on what decisions leave behind

Bounds say what decisions may report, and where the nodes that they accept may stand and read local
variables. If all decisions keep to them, so does whatever a line leaves behind, also where decisions have
texts parsed (`parseLine_within`). Without any bounds, what remains is that a line that fails is atomic: it
leaves nothing behind at all (`parseLine_atomic`).
-/

namespace Phrasebook
open Text Parse

section Reads

theorem readsOfItems_eq (items : List Expr) : readsOfItems items = items.flatMap Expr.localReads := by
  induction items with
  | nil => simp [readsOfItems]
  | cons e rest ih => simp [readsOfItems, ih]

theorem readsOfArguments_eq (arguments : List (Option Expr)) :
    readsOfArguments arguments = (arguments.filterMap id).flatMap Expr.localReads := by
  induction arguments with
  | nil => simp [readsOfArguments]
  | cons argument rest ih => cases argument <;> simp [readsOfArguments, ih]

theorem Node.localReads_eq (n : Node) : n.localReads = readsOfArguments n.arguments := by
  cases n
  rw [Node.localReads]

end Reads

namespace Parse

/-- The warnings about the local variables among some reads that no open scope declares. -/
def unsetWarnings (r : Registry) (reads : List (Span × String)) (c : Context) : List Diagnostic :=
  if r.config.warnUnsetLocals then
    (reads.filter fun read => !c.isDeclared read.2).map fun read =>
      .warning read.1 .unsetVariable
        ("local variable \x7b" ++ read.2 ++ "\x7d is used before it is set")
  else []

/-- Reading local variables that are not set leaves behind warnings. -/
theorem warnUnset_eq (r : Registry) (reads : List (Span × String)) (c : Context) :
    warnUnset r reads c = c.edited ((unsetWarnings r reads c).map .report) := by
  unfold warnUnset unsetWarnings
  split
  · -- a warning declares no name, so what comes after it is warned about as before
    induction reads generalizing c with
    | nil => rfl
    | cons read rest ih =>
      obtain ⟨span, name⟩ := read
      rw [List.foldl_cons, ih]
      by_cases declared : c.isDeclared name = true
      · simp [declared]
      · have same : ∀ d, (c.report d).isDeclared = c.isDeclared := fun d => rfl
        simp [declared, same, Edit.apply]
  · rfl

/-- The warnings leave the scopes alone. -/
theorem scopes_warnUnset (r : Registry) (reads : List (Span × String)) (c : Context) :
    (warnUnset r reads c).scopes = c.scopes := by
  rw [warnUnset_eq]
  exact Context.scopes_edited_report c _

/-- After the warnings there would be the same ones again. -/
theorem unsetWarnings_warnUnset (r : Registry) (reads : List (Span × String)) (c : Context) :
    unsetWarnings r reads (warnUnset r reads c) = unsetWarnings r reads c := by
  unfold unsetWarnings Context.isDeclared
  rw [scopes_warnUnset]

/-- What may be reported, and where nodes may stand and local variables may be read. Whatever stands on the
line itself is allowed, and so are the warnings about reads of local variables. -/
structure Bounds where
  /-- the line that is parsed -/
  line : Nat
  Reports : Diagnostic → Prop
  Nodes : Span → Prop
  Reads : Span → Prop
  nodes {span : Span} : span.line = line → Nodes span
  reads {span : Span} : span.line = line → Reads span
  warns {span : Span} (message : String) : Reads span →
    Reports (.warning span .unsetVariable message)

namespace Bounds

/-- A change reports only what may be reported. -/
def Allows (b : Bounds) (e : Edit) : Prop :=
  ∀ d, e.report? = some d → b.Reports d

/-- Local variables are read only where they may be. -/
def AllowsReads (b : Bounds) (reads : List (Span × String)) : Prop :=
  ∀ read ∈ reads, b.Reads read.1

/-- A node stands and reads local variables only where it may. -/
def AllowsNode (b : Bounds) (n : Node) : Prop :=
  b.Nodes n.span ∧ b.AllowsReads n.localReads

end Bounds

end Parse

namespace Action

/-- Everything that a decision may report satisfies a condition. -/
def Reports (P : Diagnostic → Prop) : Action → Prop
  | .accept _ | .reject _ => True
  | .look next => ∀ view, (next view).Reports P
  | .edit change next => (∀ d, change.report? = some d → P d) ∧ next.Reports P
  | .parse _ _ next => ∀ result, (next result).Reports P

/-- A node that a decision accepts reads local variables at places that satisfy a condition, if the texts do
that it has parsed. -/
def ReadsAt (P : Span → Prop) : Action → Prop
  | .accept node => ∀ read ∈ node.localReads, P read.1
  | .reject _ => True
  | .look next => ∀ view, (next view).ReadsAt P
  | .edit _ next => next.ReadsAt P
  | .parse _ _ next => ∀ result : Except Fault Expr,
      (∀ e, result = .ok e → ∀ read ∈ e.localReads, P read.1) → (next result).ReadsAt P

theorem Reports.imp {P Q : Diagnostic → Prop} (weaker : ∀ d, P d → Q d) {action : Action}
    (h : action.Reports P) : action.Reports Q := by
  induction action with
  | accept | reject => trivial
  | look next ih => exact fun view => ih view (h view)
  | edit change next ih => exact ⟨fun d reports => weaker d (h.1 d reports), ih h.2⟩
  | parse text types next ih => exact fun result => ih result (h result)

theorem Accepts.imp {P Q : Node → Prop} (weaker : ∀ n, P n → Q n) {action : Action}
    (h : action.Accepts P) : action.Accepts Q := by
  induction action with
  | accept node => exact weaker node h
  | reject => trivial
  | look next ih => exact fun view => ih view (h view)
  | edit change next ih => exact ih h
  | parse text types next ih => exact fun result => ih result (h result)

theorem reports_of_forall {P : Diagnostic → Prop} (h : ∀ d, P d) (action : Action) :
    action.Reports P := by
  induction action with
  | accept | reject => trivial
  | look next ih => exact ih
  | edit change next ih => exact ⟨fun d _ => h d, ih⟩
  | parse text types next ih => exact ih

theorem accepts_of_forall {P : Node → Prop} (h : ∀ n, P n) (action : Action) : action.Accepts P := by
  induction action with
  | accept node => exact h node
  | reject => trivial
  | look next ih => exact ih
  | edit change next ih => exact ih
  | parse text types next ih => exact ih

theorem readsAt_of_forall {P : Span → Prop} (h : ∀ span, P span) (action : Action) :
    action.ReadsAt P := by
  induction action with
  | accept node => exact fun read _ => h read.1
  | reject => trivial
  | look next ih => exact ih
  | edit change next ih => exact ih
  | parse text types next ih => exact fun result _ => ih result

end Action

/-- A definition never reports anything that satisfies a condition. -/
def NeverReports (P : Diagnostic → Prop) (decide : Node → Action) : Prop :=
  ∀ node, (decide node).Reports fun d => ¬ P d

theorem neverReports_accept (P : Diagnostic → Prop) : NeverReports P .accept :=
  fun _ => trivial

/-- A decision keeps within bounds, as far as the texts do that it has parsed. -/
def Action.Within (b : Bounds) : Action → Prop
  | .accept node => b.AllowsNode node
  | .reject _ => True
  | .look next => ∀ view, (next view).Within b
  | .edit change next => b.Allows change ∧ next.Within b
  | .parse _ _ next =>
    ∀ result : Except Fault Expr, (∀ e, result = .ok e → b.AllowsReads e.localReads) →
      (next result).Within b

/-- To keep within bounds is to keep to each of them. -/
theorem Action.within {b : Bounds} {action : Action} (reports : action.Reports b.Reports)
    (nodes : action.Accepts fun node => b.Nodes node.span) (reads : action.ReadsAt b.Reads) :
    action.Within b := by
  induction action with
  | accept node => exact ⟨nodes, reads⟩
  | reject reason => trivial
  | look next ih => exact fun view => ih view (reports view) (nodes view) (reads view)
  | edit change next ih => exact ⟨reports.1, ih reports.2 nodes reads⟩
  | parse text types next ih =>
    exact fun result allowed => ih result (reports result) (nodes result) (reads result allowed)

namespace Parse

namespace Bounds

variable (b : Bounds)

/-- A definition keeps within bounds. -/
def Permits (decide : Node → Action) : Prop :=
  ∀ node : Node, node.span.line = b.line → b.AllowsReads node.localReads → (decide node).Within b

/-- Every change is booked on its own. -/
def ledger : Ledger { e : Edit // b.Allows e } where
  Here c := c.line = b.line
  Stands span := span.line = b.line
  edits e := [e.1]
  Covers _ e := b.AllowsReads e.localReads
  CoversNode _ n := b.AllowsNode n
  stays same here := Context.line_of_setting same here
  stands _ here := here
  mono _ covers := covers
  literal value type _ := by
    intro read mem
    rw [Expr.localReads] at mem
    exact (List.not_mem_nil mem).elim
  var {log span} name isLocal type line := by
    intro read mem
    rw [Expr.localReads] at mem
    split at mem
    · rw [List.mem_singleton.1 mem]
      exact b.reads line
    · exact (List.not_mem_nil mem).elim
  list {log items span} conjunction type _ covers := by
    rw [Expr.localReads, readsOfItems_eq]
    intro read mem
    obtain ⟨e, among, read⟩ := List.mem_flatMap.1 mem
    exact covers e among _ read
  node {log n} type covers := by
    rw [Expr.localReads]
    exact covers.2
  converted {log inner} path type covers := by
    rw [Expr.localReads]
    exact covers

variable {b}

theorem reports_of_log {log : List { e : Edit // b.Allows e }} :
    ∀ d ∈ (log.flatMap b.ledger.edits).filterMap Edit.report?, b.Reports d := by
  intro d mem
  obtain ⟨e, among, reports⟩ := List.mem_filterMap.1 mem
  obtain ⟨⟨e', allowed⟩, -, same⟩ := List.mem_flatMap.1 among
  cases List.mem_singleton.1 same
  exact allowed d reports

/-- Changes that are allowed can be booked. -/
theorem exists_log {edits : List Edit} (allowed : ∀ e ∈ edits, b.Allows e) :
    ∃ log : List { e : Edit // b.Allows e }, log.flatMap b.ledger.edits = edits := by
  induction edits with
  | nil => exact ⟨[], rfl⟩
  | cons e rest ih =>
    obtain ⟨log, same⟩ := ih fun e' mem => allowed e' (List.mem_cons_of_mem e mem)
    refine ⟨⟨e, allowed e List.mem_cons_self⟩ :: log, ?_⟩
    rw [List.flatMap_cons, same]
    rfl

/-- Warnings about reads are allowed where the reads are. -/
theorem allows_unsetWarnings {r : Registry} {reads : List (Span × String)}
    (allowed : b.AllowsReads reads) {c : Context} {d : Diagnostic} (mem : d ∈ unsetWarnings r reads c) :
    b.Reports d := by
  unfold unsetWarnings at mem
  split at mem
  · obtain ⟨read, among, rfl⟩ := List.mem_map.1 mem
    exact b.warns _ (allowed read (List.mem_filter.1 among).1)
  · exact (List.not_mem_nil mem).elim

theorem warnUnset_leaves (r : Registry) {reads : List (Span × String)} (allowed : b.AllowsReads reads)
    (c : Context) : ∃ log : List { e : Edit // b.Allows e },
      c.Leaves (log.flatMap b.ledger.edits) (warnUnset r reads c) := by
  have each : ∀ e ∈ (unsetWarnings r reads c).map Edit.report, b.Allows e := by
    intro e mem
    obtain ⟨d, among, rfl⟩ := List.mem_map.1 mem
    rintro d' same
    cases same
    exact allows_unsetWarnings allowed among
  obtain ⟨log, same⟩ := exists_log each
  refine ⟨log, ?_⟩
  rw [same, warnUnset_eq]
  exact .edited _ c

/-- Having a text parsed keeps within the bounds. -/
theorem readText_within (r : Registry) {read : Reader} (books : b.ledger.BooksReader read)
    (text : String) (types : List PatternType) {c : Context} (here : c.line = b.line) :
    ∃ log : List { e : Edit // b.Allows e },
      c.Leaves (log.flatMap b.ledger.edits) (readText r read text types c).2 ∧
        ∀ e, (readText r read text types c).1 = .ok e → b.AllowsReads e.localReads := by
  obtain ⟨log, c₁, leaves, ⟨e, result, covers⟩ | ⟨fault, result⟩⟩ :=
    Ledger.readText_books r books text types here
  · obtain ⟨warnings, warned⟩ := warnUnset_leaves r (b := b) covers c₁
    refine ⟨log ++ warnings, ?_, fun e' same => ?_⟩
    · rw [result, List.flatMap_append]
      exact leaves.trans warned
    · rw [result] at same
      cases same
      exact covers
  · refine ⟨log, ?_, fun e same => ?_⟩
    · rw [result]
      exact leaves
    · rw [result] at same
      cases same

/-- **Carrying out a decision keeps within its bounds.** -/
theorem carryOut_within (r : Registry) {read : Reader} (books : b.ledger.BooksReader read)
    {action : Action} (within : action.Within b) {c : Context} (here : c.line = b.line) :
    ∃ log : List { e : Edit // b.Allows e },
      c.Leaves (log.flatMap b.ledger.edits) (carryOut r read action c).2 ∧
        ∀ node, (carryOut r read action c).1 = .ok node → b.AllowsNode node := by
  induction action generalizing c with
  | accept node =>
    refine ⟨[], .refl c, fun node' same => ?_⟩
    cases same
    exact within
  | reject reason => exact ⟨[], .refl c, nofun⟩
  | look next ih => exact ih (r.view c) (within (r.view c)) here
  | edit change next ih =>
    obtain ⟨allowed, rest⟩ := within
    have changed := Context.Leaves.edit change c
    obtain ⟨log, leaves, accepted⟩ := ih rest (changed.line.trans here)
    exact ⟨⟨change, allowed⟩ :: log, changed.trans leaves, accepted⟩
  | parse text types next ih =>
    obtain ⟨log, leaves, covers⟩ := readText_within r books text types here
    obtain ⟨log', leaves', accepted⟩ := ih (readText r read text types c).1 (within _ covers)
      (leaves.line.trans here)
    refine ⟨log ++ log', ?_, accepted⟩
    rw [List.flatMap_append]
    exact leaves.trans leaves'

theorem Permits.books {r : Registry} {read : Reader} (books : b.ledger.BooksReader read) {x : Candidate}
    (permits : b.Permits x.definition.decide) : b.ledger.BooksDecision r read x := by
  intro found span before c onLine here covers
  have reads : b.AllowsReads (nodeOf x found span).localReads := by
    rw [Node.localReads_eq, readsOfArguments_eq]
    intro read mem
    obtain ⟨e, among, mem⟩ := List.mem_flatMap.1 mem
    obtain ⟨e?, among, rfl⟩ := List.mem_filterMap.1 among
    exact covers e among read mem
  obtain ⟨log, leaves, allowed⟩ := carryOut_within r books (permits (nodeOf x found span) onLine reads) here
  exact ⟨_, leaves, fun node accepted => ⟨log, rfl, allowed node accepted⟩⟩

/-- There are no bounds. -/
def none (line : Nat) : Bounds where
  line := line
  Reports _ := True
  Nodes _ := True
  Reads _ := True
  nodes _ := trivial
  reads _ := trivial
  warns _ _ := trivial

/-- Every decision keeps within no bounds. -/
theorem within_none (line : Nat) (action : Action) : action.Within (none line) :=
  Action.within (Action.reports_of_forall (fun _ => trivial) action)
    (Action.accepts_of_forall (fun _ => trivial) action)
    (Action.readsAt_of_forall (fun _ => trivial) action)

theorem permits_none (line : Nat) (decide : Node → Action) : (none line).Permits decide :=
  fun _ _ _ => within_none line _

/-- All definitions of a registry keep within no bounds. -/
theorem permits_candidates (r : Registry) (line : Nat) (category : Category) (x : Candidate)
    (_ : x ∈ r.candidates category) : (none line).Permits x.definition.decide :=
  permits_none line _

/-- Bounds on nothing but what is reported. -/
def reporting (line : Nat) (P : Diagnostic → Prop)
    (warns : ∀ span message, P (.warning span .unsetVariable message)) : Bounds where
  line := line
  Reports := P
  Nodes _ := True
  Reads _ := True
  nodes _ := trivial
  reads _ := trivial
  warns message _ := warns _ message

theorem permits_reporting {line : Nat} {P : Diagnostic → Prop}
    {warns : ∀ span message, P (.warning span .unsetVariable message)} {decide : Node → Action}
    (reports : ∀ node, (decide node).Reports P) : (reporting line P warns).Permits decide :=
  fun node _ _ => Action.within (reports node) (Action.accepts_of_forall (fun _ => trivial) _)
    (Action.readsAt_of_forall (fun _ => trivial) _)

end Bounds

end Parse

section Line

variable {r : Registry} {category : Category} {text : String} {c c' : Context}

/-- What a candidate leaves behind for a line keeps within the bounds of all decisions. -/
theorem tryLine_within {b : Bounds}
    (permits : ∀ category, ∀ x ∈ r.candidates category, b.Permits x.definition.decide)
    (start stop : Nat) (x : Candidate) (mem : x ∈ r.candidates category) :
    b.ledger.Books (tryCandidate r (r.reader c.remainingDepth) (Line.ofString text) start stop x)
      (Ledger.OnAccepted b.ledger.CoversNode) := by
  have books : b.ledger.BooksReader (r.reader c.remainingDepth) :=
    Ledger.reader_books (fun _ books category _ x mem => (permits category x mem).books books) _
  exact Ledger.tryCandidate_books (Ledger.matchCandidate_books books _ start stop x)
    ((permits category x mem).books books)

/-- **What a line leaves behind keeps within the bounds** of all decisions. -/
theorem parseLine_within {b : Bounds}
    (permits : ∀ category, ∀ x ∈ r.candidates category, b.Permits x.definition.decide)
    (here : c.line = b.line) {node : Node} (parsed : r.parseLine category text c = (.ok node, c')) :
    ∃ added, c'.diagnostics = c.diagnostics ++ added ∧ (∀ d ∈ added, b.Reports d) ∧
      b.AllowsNode node ∧ c'.setting = c.setting := by
  obtain ⟨log, c₁, leaves, -, allowed, rfl⟩ := Ledger.parseLine_ok (tryLine_within permits) here parsed
  obtain ⟨warnings, warned⟩ := Bounds.warnUnset_leaves r allowed.2 c₁
  have both := leaves.trans warned
  rw [← List.flatMap_append] at both
  have reports : ∀ d ∈ ((log ++ warnings).flatMap b.ledger.edits).filterMap Edit.report?, b.Reports d :=
    Bounds.reports_of_log
  refine ⟨_, ?_, reports, allowed, both.setting⟩
  rw [both.diagnostics, Context.diagnostics_edited]

/-- A line that fails leaves nothing behind. -/
theorem parseLine_leaves_nil {fault : Fault} (failed : r.parseLine category text c = (.error fault, c')) :
    { c with nearMisses := c'.nearMisses }.Leaves [] c' ∧ c'.rejections = c.rejections :=
  Ledger.parseLine_error (tryLine_within (Bounds.permits_candidates r c.line)) rfl failed

/-- **A line that fails is atomic.** Whatever the decisions do on the way, it leaves the state as it was,
except for the near misses, the number of candidates that were tried and a request to cancel. -/
theorem parseLine_atomic {fault : Fault} (failed : r.parseLine category text c = (.error fault, c')) :
    c' = { c with
      nearMisses := c'.nearMisses, tried := c'.tried, cancellation := c'.cancellation } := by
  have any (category : Category) (x : Candidate) (_ : x ∈ r.candidates category) :
      (Bounds.none c.line).Permits x.definition.decide := fun node _ _ => Bounds.within_none c.line _
  obtain ⟨left, rejections⟩ := Ledger.parseLine_error (tryLine_within any) rfl failed
  have setting {β : Type} (f : Context → β) : f c'.setting = f c.setting :=
    congrArg f left.setting
  have source : c'.source = c.source := setting Context.source
  have line : c'.line = c.line := setting Context.line
  have column : c'.column = c.column := setting Context.column
  have enclosing : c'.enclosing = c.enclosing := setting Context.enclosing
  have scopes : c'.scopes = c.scopes := left.scopes
  have diagnostics : c'.diagnostics = c.diagnostics := left.diagnostics
  have depth : c'.depth = c.depth := left.depth
  have maxDepth : c'.maxDepth = c.maxDepth := left.maxDepth
  have trials : c'.trials = c.trials := left.trials
  rw [← source, ← line, ← column, ← enclosing, ← scopes, ← diagnostics, ← depth, ← maxDepth, ← trials,
    ← rejections]

/-- A vocabulary in which a statement is turned down after all kinds of changes. -/
def refusals : List Entry :=
  [.type { name := "number", plural := "numbers", literal := some fun s =>
      if s == "1" then some (.int 1) else none },
    .definition
      { category := .expression, patterns := ["one"], returns := some "number",
        decide := fun node => .edits [.declare "_one", .pushScope] (.accept node) },
    .definition
      { category := .effect, patterns := ["print %number%"],
        decide := fun node =>
          .edits [.report (.error node.span .other "printed"), .popScope, .pushScope, .cancel]
            (.parse "one" [] fun _ => .reject "not today") }]

/-- A statement within a block leaves nothing behind when it is turned down. -/
theorem parseLine_atomic_refused :
    let r := ((RegistryBuilder.withConfig {}).addAll refusals).1.build
    let c : Context := ({ line := 3, diagnostics := [default] } : Context).enterBlock 7
    ∃ fault c', r.parseLine .effect "print one" c = (.error fault, c') ∧
      c'.cancellation.isSet = true ∧
      c' = { c with
        nearMisses := c'.nearMisses, tried := c'.tried, cancellation := c'.cancellation } := by
  intro r c
  have fails : (r.parseLine .effect "print one" c).1.toOption.isNone = true := by decide +kernel
  have cancels : (r.parseLine .effect "print one" c).2.cancellation.isSet = true := by decide +kernel
  cases parsed : r.parseLine .effect "print one" c with
  | mk result c' =>
    rw [parsed] at cancels
    cases result with
    | ok node => simp [parsed, Except.toOption] at fails
    | error fault => exact ⟨fault, c', rfl, cancels, parseLine_atomic parsed⟩

end Line

end Phrasebook
