import Mathlib.Data.List.Forall2
import Phrasebook.Parse.Line
import Phrasebook.Proofs.Match.Shifted
import Phrasebook.Proofs.Parse.Translation
import Phrasebook.Proofs.Step

/-!
# Two parses in step

Two parses that correspond take their steps together: from corresponding states, each step of one and the same
step of the other come to corresponding results and leave corresponding states. Here are the states, and the
rules by which steps are put together.
-/

namespace Phrasebook.Parse
open Text

/-- How two parses are tied to each other. -/
structure Pairing extends Correspondence where
  /-- the stretches of the two texts that correspond -/
  stretches : Stretch → Stretch → Prop
  /-- what was reported before by the first parse -/
  reported : List Diagnostic
  /-- what was reported before by the second parse -/
  reported' : List Diagnostic
  /-- the near misses and numbers of candidates tried, which no step looks at -/
  asides : List NearMiss × Nat → List NearMiss × Nat → Prop
  definition_inj {d e : Nat} : definition d = definition e → d = e
  stretches_unique {a a' b b' : Stretch} : stretches a b → stretches a' b' → (a = a' ↔ b = b')
  /-- where spans stay as they are, so do stretches -/
  stretches_refl : span = id → ∀ a, stretches a a
  warnings (s : Span) (message : String) :
    reports (.warning s .unsetVariable message) (.warning (span s) .unsetVariable message)
  asides_tick {misses misses' : List NearMiss} {n n' : Nat} :
    asides (misses, n) (misses', n') → asides (misses, n + 1) (misses', n' + 1)
  asides_misses {misses misses' : List NearMiss} {n n' : Nat} (found : List NearMiss) :
    asides (misses, n) (misses', n') →
      asides (found, n) (found.map (NearMiss.translate toTranslation), n')

namespace Pairing

/-- In two parses of the same text stretches correspond if they are the same. -/
theorem stretch_eq_iff {a a' b b' : Stretch} (first : a = b) (second : a' = b') : a = a' ↔ b = b' := by
  rw [first, second]

/-- In two parses of the same text the same is reported about a local variable. -/
theorem unset_eq (s : Span) (message : String) :
    Diagnostic.warning s .unsetVariable message = .warning s .unsetVariable message := rfl

/-- The same definition is tried on corresponding stretches. -/
structure Trials (p : Pairing) (t t' : Trial) : Prop where
  definition : t'.definition = p.definition t.definition
  stretch : p.stretches t.stretch t'.stretch

/-- The states of two parses correspond. -/
structure States (p : Pairing) (c d : Context) : Prop where
  place : d.place = c.place
  scopes : d.scopes = c.scopes
  depth : d.depth = c.depth
  maxDepth : d.maxDepth = c.maxDepth
  cancellation : d.cancellation = c.cancellation
  enclosing : d.enclosing = c.enclosing.map p.definition
  trials : List.Forall₂ p.Trials c.trials d.trials
  rejections {a b : Stretch} (target : Target) : p.stretches a b →
    d.rejections.get? (b, target) = c.rejections.get? (a, target)
  diagnostics : ∃ new new', c.diagnostics = p.reported ++ new ∧ d.diagnostics = p.reported' ++ new' ∧
    List.Forall₂ p.reports new new'
  asides : p.asides (c.nearMisses, c.tried) (d.nearMisses, d.tried)
  calm : p.cancels ∨ c.cancellation = {}

namespace States

variable {p : Pairing} {c d : Context} (h : p.States c d)

include h

theorem source : d.source = c.source := congrArg Place.source h.place

theorem position : (d.line, d.column) = (c.line, c.column) := by
  have same : some (d.line, d.column) = some (c.line, c.column) := congrArg Place.position h.place
  exact Option.some.inj same

theorem isTrying {a b : Stretch} (corresponds : p.stretches a b) (definition : Nat) :
    d.isTrying (p.definition definition) b = c.isTrying definition a := by
  have trials := h.trials
  simp only [Context.isTrying]
  generalize c.trials = ts, d.trials = us at trials
  induction trials with
  | nil => rfl
  | @cons t u ts us first _ ih =>
    have same : (⟨p.definition definition, b⟩ == u) = ((⟨definition, a⟩ : Trial) == t) := by
      obtain ⟨name, stretch⟩ := u
      obtain ⟨rfl, there⟩ : name = p.definition t.definition ∧ p.stretches t.stretch stretch :=
        ⟨first.definition, first.stretch⟩
      rw [Bool.eq_iff_iff, beq_iff_eq, beq_iff_eq, Trial.mk.injEq, ← p.stretches_unique corresponds there]
      constructor
      · rintro ⟨same, rfl⟩
        rw [p.definition_inj same]
      · rintro rfl
        exact ⟨rfl, rfl⟩
    rw [List.contains_cons, List.contains_cons, same, ih]

theorem isStretchTried {a b : Stretch} (corresponds : p.stretches a b) :
    d.isStretchTried b = c.isStretchTried a := by
  have trials := h.trials
  simp only [Context.isStretchTried]
  generalize c.trials = ts, d.trials = us at trials
  induction trials with
  | nil => rfl
  | @cons t u ts us first _ ih =>
    have same : (u.stretch == b) = (t.stretch == a) := by
      rw [Bool.eq_iff_iff, beq_iff_eq, beq_iff_eq, p.stretches_unique first.stretch corresponds]
    rw [List.any_cons, List.any_cons, same, ih]

theorem report {x y : Diagnostic} (reports : p.reports x y) : p.States (c.report x) (d.report y) where
  place := h.place
  scopes := h.scopes
  depth := h.depth
  maxDepth := h.maxDepth
  cancellation := h.cancellation
  enclosing := h.enclosing
  trials := h.trials
  rejections := h.rejections
  diagnostics := by
    obtain ⟨new, new', first, second, related⟩ := h.diagnostics
    refine ⟨new ++ [x], new' ++ [y], ?_, ?_, List.rel_append related (.cons reports .nil)⟩
    · simp only [Context.report, first, List.append_assoc]
    · simp only [Context.report, second, List.append_assoc]
  asides := h.asides
  calm := h.calm

/-- Both states get the same scopes. -/
theorem withScopes (scopes : List (List String)) : p.States { c with scopes } { d with scopes } :=
  ⟨h.place, rfl, h.depth, h.maxDepth, h.cancellation, h.enclosing, h.trials, h.rejections, h.diagnostics,
    h.asides, h.calm⟩

theorem declare (name : String) : p.States (c.declare name) (d.declare name) := by
  unfold Context.declare
  rw [h.scopes]
  split
  · exact h
  · exact h.withScopes _

theorem pushScope : p.States c.pushScope d.pushScope := by
  unfold Context.pushScope
  rw [h.scopes]
  exact h.withScopes _

theorem popScope : p.States c.popScope d.popScope := by
  unfold Context.popScope
  rw [h.scopes]
  split
  · exact h.withScopes _
  · exact h

theorem enterBlock (definition : Nat) :
    p.States (c.enterBlock definition) (d.enterBlock (p.definition definition)) := by
  refine pushScope ⟨h.place, h.scopes, h.depth, h.maxDepth, h.cancellation, ?_, h.trials, h.rejections,
    h.diagnostics, h.asides, h.calm⟩
  show d.enclosing ++ [p.definition definition] = (c.enclosing ++ [definition]).map p.definition
  rw [h.enclosing, List.map_append]
  rfl

theorem leaveBlock : p.States c.leaveBlock d.leaveBlock := by
  refine popScope ⟨h.place, h.scopes, h.depth, h.maxDepth, h.cancellation, ?_, h.trials, h.rejections,
    h.diagnostics, h.asides, h.calm⟩
  show d.enclosing.dropLast = c.enclosing.dropLast.map p.definition
  rw [h.enclosing, List.map_dropLast]

/-- Both parses get the same request. -/
theorem withCancellation {cancellation : Cancellation} (calm : p.cancels ∨ cancellation = {}) :
    p.States { c with cancellation } { d with cancellation } :=
  ⟨h.place, h.scopes, h.depth, h.maxDepth, rfl, h.enclosing, h.trials, h.rejections, h.diagnostics, h.asides,
    calm⟩

theorem edit {change change' : Edit} (corresponds : change.Corresponds p.toCorrespondence change') :
    p.States (change.apply c) (change'.apply d) := by
  cases corresponds with
  | report reports => exact h.report reports
  | declare name => exact h.declare name
  | pushScope => exact h.pushScope
  | popScope => exact h.popScope
  | cancel may => exact h.withCancellation (.inl may)

/-- Both states return to corresponding states from before. -/
theorem rollback {c' d' : Context} (h' : p.States c' d') :
    p.States (c'.rollback c.checkpoint) (d'.rollback d.checkpoint) where
  place := h'.place
  scopes := h.scopes
  depth := h'.depth
  maxDepth := h'.maxDepth
  cancellation := h'.cancellation
  enclosing := h'.enclosing
  trials := h'.trials
  rejections := h'.rejections
  diagnostics := by
    obtain ⟨old, old', first, second, related⟩ := h.diagnostics
    obtain ⟨new, new', first', second', related'⟩ := h'.diagnostics
    refine ⟨new.take old.length, new'.take old.length, ?_, ?_, List.forall₂_take _ related'⟩
    · simp only [Context.rollback, Context.checkpoint, first, first', List.length_append,
        List.take_length_add_append]
    · simp only [Context.rollback, Context.checkpoint, second, second', List.length_append,
        List.take_length_add_append, related.length_eq]
  asides := h'.asides
  calm := h'.calm

theorem tried : p.States { c with tried := c.tried + 1 } { d with tried := d.tried + 1 } :=
  ⟨h.place, h.scopes, h.depth, h.maxDepth, h.cancellation, h.enclosing, h.trials, h.rejections,
    h.diagnostics, p.asides_tick h.asides, h.calm⟩

theorem push {t u : Trial} (trial : p.Trials t u) :
    p.States { c with trials := t :: c.trials } { d with trials := u :: d.trials } :=
  ⟨h.place, h.scopes, h.depth, h.maxDepth, h.cancellation, h.enclosing, .cons trial h.trials, h.rejections,
    h.diagnostics, h.asides, h.calm⟩

theorem pop : p.States { c with trials := c.trials.tail } { d with trials := d.trials.tail } := by
  refine ⟨h.place, h.scopes, h.depth, h.maxDepth, h.cancellation, h.enclosing, ?_, h.rejections,
    h.diagnostics, h.asides, h.calm⟩
  have trials := h.trials
  show List.Forall₂ p.Trials c.trials.tail d.trials.tail
  generalize c.trials = ts, d.trials = us at trials
  cases trials with
  | nil => exact .nil
  | cons _ rest => exact rest

theorem deepen : p.States c.deepen d.deepen :=
  ⟨h.place, h.scopes, congrArg (· + 1) h.depth, h.maxDepth, h.cancellation, h.enclosing, h.trials,
    h.rejections, h.diagnostics, h.asides, h.calm⟩

theorem leave : p.States c.leave d.leave :=
  ⟨h.place, h.scopes, congrArg (· - 1) h.depth, h.maxDepth, h.cancellation, h.enclosing, h.trials,
    h.rejections, h.diagnostics, h.asides, h.calm⟩

/-- Both parses remember that a stretch was turned down. -/
theorem remember {a b : Stretch} (corresponds : p.stretches a b) (target : Target) (reason : Rejection) :
    p.States { c with rejections := c.rejections.insert (a, target) reason }
      { d with rejections := d.rejections.insert (b, target) reason } := by
  refine ⟨h.place, h.scopes, h.depth, h.maxDepth, h.cancellation, h.enclosing, h.trials, ?_, h.diagnostics,
    h.asides, h.calm⟩
  intro a' b' target' there
  simp only [Table.get?_insert, Prod.mk.injEq, p.stretches_unique corresponds there, h.rejections target' there]

/-- Both parses take up what other corresponding states remember. -/
theorem withRejections {c' d' : Context} (h' : p.States c' d') :
    p.States { c' with rejections := c.rejections } { d' with rejections := d.rejections } :=
  ⟨h'.place, h'.scopes, h'.depth, h'.maxDepth, h'.cancellation, h'.enclosing, h'.trials, h.rejections,
    h'.diagnostics, h'.asides, h'.calm⟩

/-- Both parses forget what was turned down. -/
theorem forget : p.States { c with rejections := {} } { d with rejections := {} } :=
  ⟨h.place, h.scopes, h.depth, h.maxDepth, h.cancellation, h.enclosing, h.trials, fun _ _ => by simp,
    h.diagnostics, h.asides, h.calm⟩

/-- Both parses note corresponding near misses. -/
theorem withMisses (nearMisses : List NearMiss) :
    p.States { c with nearMisses }
      { d with nearMisses := nearMisses.map (NearMiss.translate p.toTranslation) } :=
  ⟨h.place, h.scopes, h.depth, h.maxDepth, h.cancellation, h.enclosing, h.trials, h.rejections,
    h.diagnostics, p.asides_misses nearMisses h.asides, h.calm⟩

theorem remainingDepth : d.remainingDepth = c.remainingDepth := by
  rw [Context.remainingDepth, Context.remainingDepth, h.maxDepth, h.depth]

end States

/-- Two results are the same error, or correspond. -/
def Results {β γ : Type} (related : β → γ → Prop) : Except Cause β → Except Cause γ → Prop
  | .ok b, .ok b' => related b b'
  | .error cause, .error cause' => cause' = cause
  | _, _ => False

/-- Two steps from related states come to related results and states. -/
def Linked (states : Context → Context → Prop) : StepLift Parsing := fun _ _ related x y =>
  ∀ c d, states c d → Results related (x c).1 (y d).1 ∧ states (x c).2 (y d).2

theorem linked_pure {states : Context → Context → Prop} {β γ : Type} {related : β → γ → Prop} {b : β} {b' : γ}
    (h : related b b') : Linked states related (Pure.pure b : Parsing β) (Pure.pure b' : Parsing γ) :=
  fun _ _ corresponds => ⟨h, corresponds⟩

theorem Linked.bind {states : Context → Context → Prop} {β γ β' γ' : Type} {related : β → γ → Prop}
    {related' : β' → γ' → Prop} {x : Parsing β} {y : Parsing γ} {f : β → Parsing β'} {g : γ → Parsing γ'}
    (first : Linked states related x y)
    (second : ∀ b b', related b b' → Linked states related' (f b) (g b')) :
    Linked states related' (x >>= f) (y >>= g) := by
  intro c d corresponds
  have ended := first c d corresponds
  simp only [Bind.bind, ExceptT.bind, ExceptT.mk, StateT.bind]
  generalize x c = a at ended
  generalize y d = a' at ended
  obtain ⟨result, c'⟩ := a
  obtain ⟨result', d'⟩ := a'
  obtain ⟨results, after⟩ := ended
  cases result with
  | error cause =>
    cases result' with
    | error cause' => exact ⟨results, after⟩
    | ok b' => exact results.elim
  | ok b =>
    cases result' with
    | error cause' => exact results.elim
    | ok b' => exact second b b' results c' d' after

/-- Two steps from corresponding states come to corresponding results and states. -/
def InStep (p : Pairing) : StepLift Parsing := Linked p.States

section Steps

variable {p : Pairing} {β γ β' γ' : Type} {related : β → γ → Prop} {related' : β' → γ' → Prop}
  {x : Parsing β} {y : Parsing γ}

theorem inStep_pure {b : β} {b' : γ} (h : related b b') :
    p.InStep related (Pure.pure b : Parsing β) (Pure.pure b' : Parsing γ) :=
  linked_pure h

theorem inStep_throw (cause : Cause) :
    p.InStep related (throw cause : Parsing β) (throw cause : Parsing γ) :=
  fun _ _ states => ⟨rfl, states⟩

theorem InStep.bind {f : β → Parsing β'} {g : γ → Parsing γ'} (first : p.InStep related x y)
    (second : ∀ b b', related b b' → p.InStep related' (f b) (g b')) :
    p.InStep related' (x >>= f) (y >>= g) :=
  Linked.bind first second

/-- Steps that are put together stay in step. -/
theorem composes (p : Pairing) : StepLift.Composes (m := Parsing) p.InStep :=
  ⟨inStep_pure, InStep.bind⟩

/-- The rest of a parse may depend on the state as far as corresponding states do. -/
theorem InStep.context {f : Context → Parsing β} {g : Context → Parsing γ}
    (h : ∀ c d, p.States c d → p.InStep related (f c) (g d)) :
    p.InStep related (Parsing.context >>= f) (Parsing.context >>= g) :=
  fun c d states => h c d states c d states

/-- What returns to a state from before comes to a corresponding one. -/
theorem InStep.checkpoint {f : Checkpoint → Parsing β} {g : Checkpoint → Parsing γ}
    (h : ∀ c d, p.States c d → p.InStep related (f c.checkpoint) (g d.checkpoint)) :
    p.InStep related (Parsing.checkpoint >>= f) (Parsing.checkpoint >>= g) :=
  fun c d states => h c d states c d states

theorem inStep_change {f g : Context → Context} (h : ∀ c d, p.States c d → p.States (f c) (g d)) :
    p.InStep (fun _ _ => True) (Parsing.change f) (Parsing.change g) :=
  fun c d states => ⟨trivial, h c d states⟩

theorem inStep_checkCancelled :
    p.InStep (fun _ _ => True) Parsing.checkCancelled Parsing.checkCancelled := by
  intro c d states
  simp only [Parsing.checkCancelled, Parsing.of, states.cancellation]
  split
  · exact ⟨rfl, states⟩
  · refine ⟨trivial, states.withCancellation (states.calm.imp_right fun calm => ?_)⟩
    rw [calm]
    rfl

theorem InStep.bracket {enter leave enter' leave' : Context → Context}
    (h : p.InStep related x y) (enters : ∀ c d, p.States c d → p.States (enter c) (enter' d))
    (leaves : ∀ c d, p.States c d → p.States (leave c) (leave' d)) :
    p.InStep related (Parsing.bracket enter leave x) (Parsing.bracket enter' leave' y) := by
  intro c d states
  obtain ⟨results, states'⟩ := h _ _ (enters c d states)
  exact ⟨results, leaves _ _ states'⟩

theorem InStep.imp {related' : β → γ → Prop} (h : p.InStep related x y)
    (weaker : ∀ b b', related b b' → related' b b') : p.InStep related' x y := by
  intro c d states
  obtain ⟨results, states'⟩ := h c d states
  refine ⟨?_, states'⟩
  generalize (x c).1 = a at results
  generalize (y d).1 = a' at results
  cases a <;> cases a' <;> first | exact weaker _ _ results | exact results

end Steps

end Pairing

end Phrasebook.Parse
