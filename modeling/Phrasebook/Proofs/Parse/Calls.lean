import Phrasebook.Proofs.Parse.Bounds
import Phrasebook.Proofs.Parse.Reordered

/-!
# Calls one after the other

The same state may be used for any number of lines and expressions. What earlier calls were asked and how they
ended has no influence on the next one, whatever the decisions do: each call leaves the nesting, the definitions
that are being tried and what was turned down as it found them, and nothing else that is left behind is looked
at. So the next call comes to the same end as it would in a new state for the same place.
-/

namespace Phrasebook
open Parse

/-- A call of the parser. -/
inductive Call where
  /-- has a line parsed as syntax of a category -/
  | line (category : Category) (text : String)
  /-- has a text parsed as an expression of one of some types -/
  | expression (text : String) (types : List PatternType)

/-- Makes a call, which answers with a node or with an expression. -/
def Call.run (r : Registry) : Call → StateM Context (Except Fault (Node ⊕ Expr))
  | .line category text => fun c => (r.parseLine category text c).map (Except.map .inl) id
  | .expression text types => fun c => (r.parseExpression text types c).map (Except.map .inr) id

namespace Context

/-- Nothing is being parsed. -/
structure AtRest (c : Context) : Prop where
  depth : c.depth = 0
  trials : c.trials = []
  rejections : c.rejections = {}

/-- The state after some calls. -/
def after (r : Registry) (calls : List Call) (c : Context) : Context :=
  calls.foldl (fun c call => (call.run r c).2) c

/-- A new state for the same place, with the same names declared, the same blocks around it, the same limit and
the same request to cancel. -/
def fresh (c : Context) : Context where
  source := c.source
  line := c.line
  column := c.column
  scopes := c.scopes
  maxDepth := c.maxDepth
  cancellation := c.cancellation
  enclosing := c.enclosing

end Context

namespace Call

variable (r : Registry) {c : Context}

@[simp] theorem run_line (category : Category) (text : String) (c : Context) :
    (Call.line category text).run r c =
      ((r.parseLine category text c).1.map .inl, (r.parseLine category text c).2) := rfl

@[simp] theorem run_expression (text : String) (types : List PatternType) (c : Context) :
    (Call.expression text types).run r c =
      ((r.parseExpression text types c).1.map .inr, (r.parseExpression text types c).2) := rfl

/-- A line forgets the near misses before anything else. -/
theorem parseLine_forgets (category : Category) (text : String) (c : Context) (nearMisses : List NearMiss) :
    r.parseLine category text { c with nearMisses } = r.parseLine category text c := rfl

theorem run_line_leaves (category : Category) (text : String) (c : Context) :
    ∃ edits, { c with nearMisses := (r.parseLine category text c).2.nearMisses }.Leaves edits
      (r.parseLine category text c).2 := by
  cases parsed : r.parseLine category text c with
  | mk result c' =>
    cases result with
    | error fault => exact ⟨[], (parseLine_leaves_nil parsed).1⟩
    | ok node =>
      obtain ⟨log, c₁, leaves, -, -, rfl⟩ :=
        Ledger.parseLine_ok (tryLine_within (Bounds.permits_candidates r c.line)) rfl parsed
      rw [warnUnset_eq]
      have left := leaves.trans (.edited ((unsetWarnings r node.localReads c₁).map .report) c₁)
      rw [left.nearMisses]
      exact ⟨_, left⟩

theorem run_expression_leaves (text : String) (types : List PatternType) (c : Context) :
    ∃ edits, c.Leaves edits (r.parseExpression text types c).2 := by
  have books : (Bounds.none c.line).ledger.BooksReader (r.reader c.remainingDepth) :=
    Ledger.reader_books (fun _ books _ _ _ _ =>
      (Bounds.permits_none c.line _).books books) _
  obtain ⟨log, leaves, -⟩ := Bounds.readText_within r books text types rfl
  exact ⟨_, leaves⟩

/-- **A call ends at rest** if it began so, whether it succeeds or not. -/
theorem atRest_run (rest : c.AtRest) (call : Call) : (call.run r c).2.AtRest := by
  cases call with
  | line category text =>
    obtain ⟨edits, leaves⟩ := run_line_leaves r category text c
    simp only [run_line]
    exact ⟨leaves.depth.trans rest.depth, leaves.trials.trans rest.trials,
      (r.rejections_parseLine category text c).trans rest.rejections⟩
  | expression text types =>
    obtain ⟨edits, leaves⟩ := run_expression_leaves r text types c
    simp only [run_expression]
    exact ⟨leaves.depth.trans rest.depth, leaves.trials.trans rest.trials,
      (r.rejections_parseExpression text types c).trans rest.rejections⟩

/-- Any number of calls ends at rest. -/
theorem atRest_after (rest : c.AtRest) (calls : List Call) : (c.after r calls).AtRest := by
  induction calls generalizing c with
  | nil => exact rest
  | cons call calls ih => exact ih (atRest_run r rest call)

end Call

namespace Parse.Pairing

/-- Two parses of the same text, the second after some calls that have reported something and tried some
candidates. Near misses are compared only where both parses started without any. -/
def afterwards (reported : List Diagnostic) (tried : Nat) (cleared : Prop) : Pairing where
  toCorrespondence := .same True
  stretches := Eq
  reported := []
  reported' := reported
  asides a b := (cleared → b.1 = a.1) ∧ b.2 = tried + a.2
  definition_inj same := same
  stretches_unique := @stretch_eq_iff
  stretches_refl _ _ := rfl
  warnings := unset_eq
  asides_tick h := ⟨h.1, congrArg (· + 1) h.2⟩
  asides_misses found h := ⟨fun _ => List.map_id found, h.2⟩

variable {reported : List Diagnostic} {tried : Nat} {cleared : Prop} {c d : Context}

/-- A state at rest corresponds to a new one. -/
theorem afterwards_states (rest : d.AtRest) (cleared : Prop) (nearMisses : List NearMiss)
    (same : cleared → nearMisses = []) :
    (afterwards d.diagnostics d.tried cleared).States d.fresh { d with nearMisses } where
  place := rfl
  scopes := rfl
  depth := rest.depth
  maxDepth := rfl
  cancellation := rfl
  enclosing := (List.map_id _).symm
  trials := by
    show List.Forall₂ _ [] d.trials
    rw [rest.trials]
    exact .nil
  rejections target _ := by
    show d.rejections.get? _ = _
    rw [rest.rejections]
    rfl
  diagnostics := ⟨[], [], rfl, (List.append_nil _).symm, .nil⟩
  asides := ⟨same, rfl⟩
  calm := .inl trivial

/-- Corresponding states at rest are the same, but for what no step looks at. -/
theorem States.eq_afterwards (states : (afterwards reported tried cleared).States c d) (rest : c.AtRest)
    (rest' : d.AtRest) {nearMisses : List NearMiss} (noted : d.nearMisses = nearMisses) :
    d = { c with diagnostics := reported ++ c.diagnostics, tried := tried + c.tried, nearMisses } := by
  obtain ⟨line, column⟩ := Prod.mk.inj states.position
  obtain ⟨new, new', first, second, related⟩ := states.diagnostics
  obtain rfl : new = new' := List.forall₂_eq_eq_eq ▸ related
  have diagnostics : d.diagnostics = reported ++ c.diagnostics :=
    second.trans (congrArg (reported ++ ·) first.symm)
  have enclosing : d.enclosing = c.enclosing := states.enclosing.trans (List.map_id _)
  have trials : d.trials = c.trials := rest'.trials.trans rest.trials.symm
  have rejections : d.rejections = c.rejections := rest'.rejections.trans rest.rejections.symm
  have triedNow : d.tried = tried + c.tried := states.asides.2
  rw [← states.source, ← line, ← column, ← states.scopes, ← diagnostics, ← states.depth, ← states.maxDepth,
    ← states.cancellation, ← trials, ← enclosing, ← triedNow, ← rejections, ← noted]

end Parse.Pairing

/-- **Nothing crosses from one call to the next.** After any calls, the next one answers as it does in a new
state for the same place, declares the same names, reports the same after what was reported before, and notes the
same near misses if it is about a line. An expression leaves the near misses of the last line alone. -/
theorem Call.run_as_fresh (r : Registry) {c : Context} (rest : c.AtRest) (earlier : List Call) (call : Call) :
    let used := c.after r earlier
    (call.run r used).1 = (call.run r used.fresh).1 ∧
      (call.run r used).2 = { (call.run r used.fresh).2 with
        diagnostics := used.diagnostics ++ (call.run r used.fresh).2.diagnostics
        tried := used.tried + (call.run r used.fresh).2.tried
        nearMisses := match call with
          | .line .. => (call.run r used.fresh).2.nearMisses
          | .expression .. => used.nearMisses } := by
  intro used
  have atRest : used.AtRest := Call.atRest_after r rest earlier
  clear_value used
  have start : used.fresh.AtRest := ⟨rfl, rfl, rfl⟩
  have ended := Call.atRest_run r atRest call
  have endedAnew := Call.atRest_run r start call
  cases call with
  | line category text =>
    obtain ⟨answer, states⟩ := Pairing.parseLine_same (r := r) rfl (.inl trivial)
      (Pairing.afterwards_states atRest True [] fun _ => rfl) category text
    rw [Call.parseLine_forgets r category text used []] at answer states
    rw [Call.run_line] at ended endedAnew ⊢
    rw [Call.run_line, answer]
    generalize r.parseLine category text used = ran at states ended ⊢
    generalize r.parseLine category text used.fresh = anew at states endedAnew ⊢
    exact ⟨rfl, states.eq_afterwards endedAnew ended (states.asides.1 trivial)⟩
  | expression text types =>
    obtain ⟨answer, states⟩ := Pairing.parseExpression_same (r := r) rfl (.inl trivial)
      (Pairing.afterwards_states atRest False used.nearMisses False.elim) text types
    obtain ⟨edits, leaves⟩ := Call.run_expression_leaves r text types used
    have noted := leaves.nearMisses
    rw [Call.run_expression] at ended endedAnew ⊢
    rw [Call.run_expression, answer]
    generalize r.parseExpression text types used = ran at states ended noted ⊢
    generalize r.parseExpression text types used.fresh = anew at states endedAnew ⊢
    exact ⟨rfl, states.eq_afterwards endedAnew ended noted⟩

/-- A vocabulary in which a statement reports something, declares a name and has a text parsed before it is
accepted or turned down. -/
def chatter : List Entry :=
  [.type { name := "number", plural := "numbers", literal := some fun s =>
      if s == "1" then some (.int 1) else if s == "2" then some (.int 2) else none },
    .definition
      { category := .expression, patterns := ["%number% plus %number%"], returns := some "number" },
    .definition
      { category := .effect, patterns := ["print %number%"]
        decide := fun node =>
          .edits [.report (.warning node.span .other "seen"), .declare "_seen"] <|
            .look fun view =>
              .parse "1 plus 1" (view.types.table.resolve "number").toList fun
                | .ok e => if node.literal? 0 == some (.int 2) then .reject "too much"
                  else .accept { node with arguments := node.arguments ++ [some e] }
                | .error fault => .reject fault.message }]

/-- A line is accepted as in a new state after others that stood at the same place and were turned down. -/
theorem Call.run_as_fresh_chatter :
    let r := ((RegistryBuilder.withConfig {}).addAll chatter).1.build
    let c : Context := { line := 3, diagnostics := [default], scopes := [[], ["_x"]] }
    let earlier : List Call := [.line .effect "print x plus 1", .line .effect "print 2",
      .expression "1 plus" [], .line .effect "print 1"]
    let call : Call := .line .effect "print 1 plus 1"
    let used := c.after r earlier
    c.AtRest ∧ used.diagnostics.length = 2 ∧ used.scopes = [["_seen"], ["_x"]] ∧
      (call.run r used.fresh).1.toOption.isSome = true ∧
      (call.run r used).1 = (call.run r used.fresh).1 ∧
      (call.run r used).2.scopes = (call.run r used.fresh).2.scopes ∧
      (call.run r used).2.nearMisses = (call.run r used.fresh).2.nearMisses ∧
      (call.run r used).2.diagnostics = used.diagnostics ++ (call.run r used.fresh).2.diagnostics := by
  intro r c earlier call used
  have rest : c.AtRest := ⟨rfl, rfl, rfl⟩
  have computed : used.diagnostics.length = 2 ∧ used.scopes = [["_seen"], ["_x"]] ∧
      (call.run r used.fresh).1.toOption.isSome = true := by decide +kernel
  obtain ⟨answer, state⟩ := Call.run_as_fresh r rest earlier call
  have scopes : (call.run r used).2.scopes = _ := congrArg Context.scopes state
  have nearMisses : (call.run r used).2.nearMisses = _ := congrArg Context.nearMisses state
  have diagnostics : (call.run r used).2.diagnostics = _ := congrArg Context.diagnostics state
  obtain ⟨reported, declared, accepted⟩ := computed
  exact ⟨rest, reported, declared, accepted, answer, scopes, nearMisses, diagnostics⟩

end Phrasebook
