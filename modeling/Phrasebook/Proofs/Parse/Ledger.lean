import Phrasebook.Proofs.Match.Backtrack
import Phrasebook.Proofs.Parse.Alike

/-!
# What a step leaves behind

A step of a parse may go deeper, try definitions and remember what was turned down, but in the end it leaves
behind nothing except changes that decisions have made: `Context.Leaves` says which. A rollback takes back all
of them. A `Ledger` says how the changes are grouped into entries, and what holds of an expression by the
entries made while it was read; `Ledger.Books` says it of a step, and goes through a sequence of steps one
after the other.
-/

namespace Phrasebook
open Text Pattern

/-- What a change reports. -/
def Edit.report? : Edit → Option Diagnostic
  | .report d => some d
  | .declare _ | .pushScope | .popScope | .cancel => none

/-- Reports report what they say. -/
theorem Edit.filterMap_report? (ds : List Diagnostic) :
    (ds.map Edit.report).filterMap Edit.report? = ds := by
  rw [List.filterMap_map]
  exact List.filterMap_some

namespace Context

/-- The state after some changes, made one after the other. -/
def edited (c : Context) (edits : List Edit) : Context :=
  edits.foldl (fun c e => e.apply c) c

@[simp] theorem edited_nil (c : Context) : c.edited [] = c := rfl

@[simp] theorem edited_cons (c : Context) (e : Edit) (edits : List Edit) :
    c.edited (e :: edits) = (e.apply c).edited edits := rfl

theorem edited_append (c : Context) (edits edits' : List Edit) :
    c.edited (edits ++ edits') = (c.edited edits).edited edits' := List.foldl_append

/-- A change reports at the end of what was reported before. -/
theorem diagnostics_apply (e : Edit) (c : Context) :
    (e.apply c).diagnostics = c.diagnostics ++ e.report?.toList := by
  cases e with
  | report d => rfl
  | declare name =>
    simp only [Edit.apply, declare]
    split <;> simp [Edit.report?]
  | pushScope => simp [Edit.apply, pushScope, Edit.report?]
  | popScope =>
    simp only [Edit.apply, popScope]
    split <;> simp [Edit.report?]
  | cancel => simp [Edit.apply, cancel, Edit.report?]

/-- Changes report one after the other. -/
theorem diagnostics_edited (c : Context) (edits : List Edit) :
    (c.edited edits).diagnostics = c.diagnostics ++ edits.filterMap Edit.report? := by
  induction edits generalizing c with
  | nil => simp
  | cons e edits ih =>
    rw [edited_cons, ih, diagnostics_apply, List.append_assoc]
    cases h : e.report? <;> simp [h]

/-- What a change makes of the scopes depends on the scopes alone. -/
theorem scopes_apply {c d : Context} (h : c.scopes = d.scopes) (e : Edit) :
    (e.apply c).scopes = (e.apply d).scopes := by
  cases e with
  | report d => exact h
  | declare name =>
    simp only [Edit.apply, declare, h]
    split <;> simp [h]
  | pushScope => simp only [Edit.apply, pushScope, h]
  | popScope =>
    simp only [Edit.apply, popScope, h]
    split <;> simp [h]
  | cancel => exact h

theorem scopes_edited {c d : Context} (h : c.scopes = d.scopes) (edits : List Edit) :
    (c.edited edits).scopes = (d.edited edits).scopes := by
  induction edits generalizing c d with
  | nil => exact h
  | cons e edits ih => exact ih (scopes_apply h e)

/-- Reports leave the scopes alone. -/
theorem scopes_edited_report (c : Context) (ds : List Diagnostic) :
    (c.edited (ds.map .report)).scopes = c.scopes := by
  induction ds generalizing c with
  | nil => rfl
  | cons d ds ih =>
    rw [List.map_cons, edited_cons, ih]
    rfl

/-- The part of a state that tells what was left behind. -/
def remains (c : Context) : Context :=
  { c.setting with
    maxDepth := c.maxDepth, nearMisses := c.nearMisses, diagnostics := c.diagnostics, scopes := c.scopes }

/-- States in the same setting are in the same line. -/
theorem line_of_setting {c c' : Context} {line : Nat} (h : c'.setting = c.setting) (here : c.line = line) :
    c'.line = line := by
  have same : c'.setting.line = c.setting.line := by rw [h]
  exact same.trans here

/-- What a step leaves behind: some changes to what was reported and to the scopes, and else at most a request
to cancel, the number of candidates that were tried and what was turned down. -/
structure Leaves (c : Context) (edits : List Edit) (c' : Context) : Prop where
  setting : c'.setting = c.setting
  depth : c'.depth = c.depth
  maxDepth : c'.maxDepth = c.maxDepth
  trials : c'.trials = c.trials
  nearMisses : c'.nearMisses = c.nearMisses
  diagnostics : c'.diagnostics = (c.edited edits).diagnostics
  scopes : c'.scopes = (c.edited edits).scopes

namespace Leaves

variable {c c' c'' : Context} {edits edits' : List Edit}

theorem refl (c : Context) : c.Leaves [] c := ⟨rfl, rfl, rfl, rfl, rfl, rfl, rfl⟩

theorem trans (h : c.Leaves edits c') (h' : c'.Leaves edits' c'') : c.Leaves (edits ++ edits') c'' where
  setting := h'.setting.trans h.setting
  depth := h'.depth.trans h.depth
  maxDepth := h'.maxDepth.trans h.maxDepth
  trials := h'.trials.trans h.trials
  nearMisses := h'.nearMisses.trans h.nearMisses
  diagnostics := by
    rw [h'.diagnostics, edited_append, diagnostics_edited, h.diagnostics, ← diagnostics_edited]
  scopes := by
    rw [h'.scopes, edited_append]
    exact scopes_edited h.scopes edits'

/-- The line does not change. -/
theorem line (h : c.Leaves edits c') : c'.line = c.line :=
  line_of_setting h.setting rfl

/-- A change leaves itself behind. -/
theorem edit (e : Edit) (c : Context) : c.Leaves [e] (e.apply c) := by
  have same : (e.apply c).setting = c.setting ∧ (e.apply c).depth = c.depth ∧
      (e.apply c).maxDepth = c.maxDepth ∧ (e.apply c).trials = c.trials ∧
      (e.apply c).nearMisses = c.nearMisses := by
    cases e with
    | report d => exact ⟨rfl, rfl, rfl, rfl, rfl⟩
    | declare name =>
      simp only [Edit.apply, declare]
      split <;> exact ⟨rfl, rfl, rfl, rfl, rfl⟩
    | pushScope => exact ⟨rfl, rfl, rfl, rfl, rfl⟩
    | popScope =>
      simp only [Edit.apply, popScope]
      split <;> exact ⟨rfl, rfl, rfl, rfl, rfl⟩
    | cancel => exact ⟨rfl, rfl, rfl, rfl, rfl⟩
  obtain ⟨setting, depth, maxDepth, trials, nearMisses⟩ := same
  exact ⟨setting, depth, maxDepth, trials, nearMisses, rfl, rfl⟩

/-- Changes leave themselves behind. -/
theorem edited (edits : List Edit) (c : Context) : c.Leaves edits (c.edited edits) := by
  induction edits generalizing c with
  | nil => exact refl c
  | cons e rest ih =>
    have first := edit e c
    exact first.trans (ih (e.apply c))

/-- **A rollback takes back whatever was left behind.** -/
theorem rollback (h : c.Leaves edits c') : c.Leaves [] (c'.rollback c.checkpoint) where
  setting := h.setting
  depth := h.depth
  maxDepth := h.maxDepth
  trials := h.trials
  nearMisses := h.nearMisses
  diagnostics := by
    have reported := h.diagnostics
    rw [diagnostics_edited] at reported
    simp [Context.rollback, checkpoint, reported]
  scopes := rfl

/-- A step within others that change nothing which is left behind, and take back what else they change. -/
theorem around {d d' : Context} (h : d.Leaves edits d') (before : d.remains = c.remains)
    (after : c'.remains = d'.remains) (depth : c'.depth = c.depth) (trials : c'.trials = c.trials) :
    c.Leaves edits c' := by
  have same {β : Type} (f : Context → β) : f d.remains = f c.remains := congrArg f before
  have same' {β : Type} (f : Context → β) : f c'.remains = f d'.remains := congrArg f after
  refine ⟨?_, depth, ?_, trials, ?_, ?_, ?_⟩
  · exact (same' Context.setting).trans (h.setting.trans (same Context.setting))
  · exact (same' Context.maxDepth).trans (h.maxDepth.trans (same Context.maxDepth))
  · exact (same' Context.nearMisses).trans (h.nearMisses.trans (same Context.nearMisses))
  · have reported : d.diagnostics = c.diagnostics := same Context.diagnostics
    have later := h.diagnostics
    rw [diagnostics_edited, reported, ← diagnostics_edited] at later
    exact (same' Context.diagnostics).trans later
  · have declared : d.scopes = c.scopes := same Context.scopes
    exact (same' Context.scopes).trans (h.scopes.trans (scopes_edited declared edits))

/-- A level of nesting is left again. -/
theorem deeper (h : c.deepen.Leaves edits c') : c.Leaves edits c'.leave := by
  refine h.around rfl rfl ?_ h.trials
  have level : c'.depth = c.depth + 1 := h.depth
  simp only [leave, level]
  omega

/-- A definition is tried no longer. -/
theorem trying {trial : Trial} (h : { c with trials := trial :: c.trials }.Leaves edits c') :
    c.Leaves edits { c' with trials := c'.trials.tail } := by
  refine h.around rfl rfl h.depth ?_
  have tried : c'.trials = trial :: c.trials := h.trials
  simp only [tried, List.tail_cons]

/-- A step that leaves nothing behind leaves the state as it was, but for the number of candidates that were
tried. -/
theorem eq_of_nil (h : c.Leaves [] c') (rejections : c'.rejections = c.rejections)
    (cancellation : c'.cancellation = c.cancellation) : c' = { c with tried := c'.tried } := by
  have setting {β : Type} (f : Context → β) : f c'.setting = f c.setting := congrArg f h.setting
  have source : c'.source = c.source := setting Context.source
  have line : c'.line = c.line := setting Context.line
  have column : c'.column = c.column := setting Context.column
  have enclosing : c'.enclosing = c.enclosing := setting Context.enclosing
  rw [← source, ← line, ← column, ← enclosing, ← rejections, ← cancellation, ← h.depth, ← h.maxDepth,
    ← h.trials, ← h.nearMisses, show c.scopes = c'.scopes from h.scopes.symm,
    show c.diagnostics = c'.diagnostics from h.diagnostics.symm]

/-- It does not matter what had been turned down before, nor what is remembered of it. -/
theorem remembering {rejections rejections' : Rejections}
    (h : { c with rejections }.Leaves edits c') :
    c.Leaves edits { c' with rejections := rejections' } :=
  h.around rfl rfl h.depth h.trials

end Leaves

end Context

namespace Parse

/-- How the changes that a parse leaves behind are booked: in entries, each for some changes. By the entries
something may hold of every expression that was read meanwhile, and of every node that was accepted. -/
structure Ledger (α : Type) where
  /-- the states from which is parsed what is booked -/
  Here : Context → Prop
  /-- the places that spans have in these states -/
  Stands : Span → Prop
  edits : α → List Edit
  Covers : List α → Expr → Prop
  CoversNode : List α → Node → Prop
  stays {c c' : Context} : c'.setting = c.setting → Here c → Here c'
  stands {c : Context} (stretch : Stretch) : Here c → Stands (c.span stretch)
  mono {log log' : List α} {e : Expr} : log ⊆ log' → Covers log e → Covers log' e
  literal {log : List α} {span : Span} (value : Value) (type : PatternType) :
    Stands span → Covers log (.literal value type span)
  var {log : List α} {span : Span} (name : String) (isLocal : Bool) (type : PatternType) :
    Stands span → Covers log (.var name isLocal type span)
  list {log : List α} {items : List Expr} {span : Span} (conjunction : Conjunction) (type : PatternType) :
    Stands span → (∀ e ∈ items, Covers log e) → Covers log (.list items conjunction type span)
  node {log : List α} {n : Node} (type : PatternType) :
    CoversNode log n → Covers log (.node n type n.span)
  converted {log : List α} {inner : Expr} (path : List TypeId) (type : PatternType) :
    Covers log inner → Covers log (.converted inner path type inner.span)

namespace Ledger

variable {α β γ : Type} (l : Ledger α)

/-- From a state of the ledger, a step leaves behind the changes of some entries, and its result satisfies a
condition with these. -/
def Books (x : Parsing β) (Q : Except Cause β → List α → Prop) : Prop :=
  ∀ c, l.Here c → ∃ log, c.Leaves (log.flatMap l.edits) (x c).2 ∧ Q (x c).1 log

/-- A step has nothing to book. -/
def Silent (x : Parsing β) : Prop :=
  l.Books x fun _ log => log = []

end Ledger

/-- A condition on results, which errors satisfy in any case. -/
def OnSuccess {α β : Type} (Q : β → List α → Prop) : Except Cause β → List α → Prop
  | .ok b, log => Q b log
  | .error _, _ => True

namespace Ledger

variable {α β γ : Type} {l : Ledger α}

theorem books_pure {Q : Except Cause β → List α → Prop} {b : β} (h : Q (.ok b) []) :
    l.Books (pure b) Q :=
  fun c _ => ⟨[], .refl c, h⟩

theorem Books.imp {x : Parsing β} {P Q : Except Cause β → List α → Prop} (h : l.Books x P)
    (weaker : ∀ result log, P result log → Q result log) : l.Books x Q := by
  intro c here
  obtain ⟨log, leaves, holds⟩ := h c here
  exact ⟨log, leaves, weaker _ _ holds⟩

/-- What a step leaves behind may be booked in another ledger. -/
theorem Books.transfer {l' : Ledger γ} {x : Parsing β} {P : Except Cause β → List α → Prop}
    {Q : Except Cause β → List γ → Prop} (h : l.Books x P) (states : ∀ c, l'.Here c → l.Here c)
    (entries : ∀ result log, P result log →
      ∃ log', log'.flatMap l'.edits = log.flatMap l.edits ∧ Q result log') : l'.Books x Q := by
  intro c here
  obtain ⟨log, leaves, holds⟩ := h c (states c here)
  obtain ⟨log', same, holds'⟩ := entries _ log holds
  rw [← same] at leaves
  exact ⟨log', leaves, holds'⟩

/-- One step after another. -/
theorem Books.bind {x : Parsing β} {f : β → Parsing γ} {P : Except Cause β → List α → Prop}
    {Q : Except Cause γ → List α → Prop} (first : l.Books x P)
    (error : ∀ cause log, P (.error cause) log → Q (.error cause) log)
    (second : ∀ b log, P (.ok b) log → l.Books (f b) fun result log' => Q result (log ++ log')) :
    l.Books (x >>= f) Q := by
  intro c here
  obtain ⟨log, leaves, holds⟩ := first c here
  cases ran : x c with
  | mk result c' =>
    rw [ran] at leaves holds
    cases result with
    | error cause =>
      rw [bind_error ran]
      exact ⟨log, leaves, error cause log holds⟩
    | ok b =>
      obtain ⟨log', leaves', holds'⟩ := second b log holds c' (l.stays leaves.setting here)
      rw [Ends.bind_apply ran]
      refine ⟨log ++ log', ?_, holds'⟩
      rw [List.flatMap_append]
      exact leaves.trans leaves'

/-- One step after another, where errors of the second do not matter. -/
theorem Books.bindOnSuccess {x : Parsing β} {f : β → Parsing γ} {P : Except Cause β → List α → Prop}
    {Q : γ → List α → Prop} (first : l.Books x P)
    (second : ∀ b log, P (.ok b) log → l.Books (f b) (OnSuccess fun b' log' => Q b' (log ++ log'))) :
    l.Books (x >>= f) (OnSuccess Q) := by
  refine first.bind (fun _ _ _ => trivial) fun b log holds => ?_
  refine (second b log holds).imp fun result log' holds' => ?_
  cases result with
  | error => trivial
  | ok => exact holds'

/-- One step after another, where errors do not matter. -/
theorem Books.andThen {x : Parsing β} {f : β → Parsing γ} {P : β → List α → Prop}
    {Q : γ → List α → Prop} (first : l.Books x (OnSuccess P))
    (second : ∀ b log, P b log → l.Books (f b) (OnSuccess fun b' log' => Q b' (log ++ log'))) :
    l.Books (x >>= f) (OnSuccess Q) :=
  first.bindOnSuccess second

/-- One step after another, where the first has nothing to book. -/
theorem Silent.bind {x : Parsing β} {f : β → Parsing γ} {Q : Except Cause γ → List α → Prop}
    (first : l.Silent x) (error : ∀ cause, Q (.error cause) [])
    (second : ∀ b, l.Books (f b) Q) : l.Books (x >>= f) Q := by
  refine Books.bind first (fun cause log none => ?_) fun b log none => ?_
  · rw [none]
    exact error cause
  · rw [none]
    exact second b

theorem silent_change {f : Context → Context} (silent : ∀ c : Context, c.Leaves [] (f c)) :
    l.Silent (Parsing.change f) :=
  fun c _ => ⟨[], silent c, rfl⟩

theorem silent_checkCancelled : l.Silent Parsing.checkCancelled := by
  intro c _
  refine ⟨[], ?_, rfl⟩
  by_cases set : c.cancellation.isSet = true
  · simp only [Parsing.checkCancelled, Parsing.of, set, if_true]
    exact .refl c
  · rw [ends_checkCancelled set]
    exact ⟨rfl, rfl, rfl, rfl, rfl, rfl, rfl⟩

/-- The rest of a step may depend on the state. -/
theorem books_context {f : Context → Parsing β} {Q : Except Cause β → List α → Prop}
    (h : ∀ c : Context, l.Here c → l.Books (f c) Q) : l.Books (Parsing.context >>= f) Q :=
  fun c here => h c here c here

/-- A bracket that is closed again. -/
theorem Books.bracket {x : Parsing β} {Q : Except Cause β → List α → Prop} (h : l.Books x Q)
    {enter leave : Context → Context} (enters : ∀ c : Context, (enter c).setting = c.setting)
    (leaves : ∀ (c c' : Context) (edits : List Edit), (enter c).Leaves edits c' →
      c.Leaves edits (leave c')) : l.Books (Parsing.bracket enter leave x) Q := by
  intro c here
  obtain ⟨log, left, holds⟩ := h (enter c) (l.stays (enters c) here)
  exact ⟨log, leaves c _ _ left, holds⟩

end Ledger

end Parse

end Phrasebook
