import Phrasebook.Parse.Expression

/-!
# What decisions may do

A decision is a tree of actions, so what holds of every node that it may accept is said by recursion on the
tree; carrying the decision out keeps to it.
-/

namespace Phrasebook

/-- Every node that a decision may accept satisfies a condition, whatever it sees of the state and whatever
its texts are parsed as. -/
def Action.Accepts (P : Node → Prop) : Action → Prop
  | .accept node => P node
  | .reject _ => True
  | .look next => ∀ view, (next view).Accepts P
  | .edit _ next => next.Accepts P
  | .parse _ _ next => ∀ result, (next result).Accepts P

/-- A decision leaves a node that it accepts as it was matched, except for its type. -/
def KeepsMatches (decide : Node → Action) : Prop :=
  ∀ node, (decide node).Accepts fun accepted => ∃ returns, accepted = { node with returns }

theorem keepsMatches_accept : KeepsMatches .accept := by
  intro node
  refine ⟨node.returns, ?_⟩
  cases node
  rfl

/-- What a decision changes around a node does not change the node. -/
theorem keepsMatches_edits (changes : Node → List Edit) :
    KeepsMatches fun node => .edits (changes node) (.accept node) := by
  intro node
  have kept := keepsMatches_accept node
  dsimp only
  induction changes node with
  | nil => exact kept
  | cons change rest ih => exact ih

/-- What a decision comes to if it only looks at its surroundings. One that changes them or has a text parsed
comes to nothing of the kind. -/
def Action.verdict? (view : View) : Action → Option (Except String Node)
  | .accept node => some (.ok node)
  | .reject reason => some (.error reason)
  | .look next => (next view).verdict? view
  | .edit _ _ | .parse _ _ _ => none

/-- A decision depends on the node and the blocks around the line alone, and changes nothing. -/
def DecidesByBlocks (r : Registry) (decide : Node → Action) : Prop :=
  ∃ verdict : Node → List Nat → Except String Node, ∀ node c,
    (decide node).verdict? (r.view c) = some (verdict node c.enclosing)

theorem decidesByBlocks_accept (r : Registry) : DecidesByBlocks r .accept :=
  ⟨fun node _ => .ok node, fun _ _ => rfl⟩

/-- A decision has no text parsed, whatever it sees of the state. -/
def Action.ParsesNothing : Action → Prop
  | .accept _ | .reject _ => True
  | .look next => ∀ view, (next view).ParsesNothing
  | .edit _ next => next.ParsesNothing
  | .parse _ _ _ => False

/-- A decision changes nothing of the state but what was reported, the scopes, and the request to cancel. -/
theorem Edit.exists_apply (change : Edit) (c : Context) :
    ∃ diagnostics scopes cancellation, change.apply c = { c with diagnostics, scopes, cancellation } := by
  cases change with
  | report => exact ⟨_, c.scopes, c.cancellation, rfl⟩
  | pushScope => exact ⟨c.diagnostics, _, c.cancellation, rfl⟩
  | cancel => exact ⟨c.diagnostics, c.scopes, _, rfl⟩
  | declare name =>
    simp only [apply, Context.declare]
    split
    · exact ⟨c.diagnostics, c.scopes, c.cancellation, rfl⟩
    · exact ⟨c.diagnostics, _, c.cancellation, rfl⟩
  | popScope =>
    simp only [apply, Context.popScope]
    split
    · exact ⟨c.diagnostics, _, c.cancellation, rfl⟩
    · exact ⟨c.diagnostics, c.scopes, c.cancellation, rfl⟩

/-- A change that a decision makes leaves what is being tried alone. -/
@[simp] theorem Edit.trials_apply (change : Edit) (c : Context) : (change.apply c).trials = c.trials := by
  obtain ⟨_, _, _, same⟩ := change.exists_apply c
  rw [same]

/-- Reporting what is used before it is set changes nothing of the state but what was reported. -/
theorem Parse.exists_warnUnset (r : Registry) (reads : List (Span × String)) (c : Context) :
    ∃ diagnostics, warnUnset r reads c = { c with diagnostics } := by
  unfold warnUnset
  split
  · induction reads generalizing c with
    | nil => exact ⟨c.diagnostics, rfl⟩
    | cons read rest ih =>
      rw [List.foldl_cons]
      dsimp only
      split
      · exact ih c
      · exact ih (c.report _)
  · exact ⟨c.diagnostics, rfl⟩

/-- A change of the state is beside what decisions change: what was reported, the scopes, and the request to
cancel. -/
def Context.Beside (f : Context → Context) : Prop :=
  ∀ c diagnostics scopes cancellation,
    f { c with diagnostics, scopes, cancellation } = { f c with diagnostics, scopes, cancellation }

section Beside

variable {f : Context → Context} (beside : Context.Beside f)

include beside

theorem Context.Beside.same (c : Context) :
    f c = { f c with diagnostics := c.diagnostics, scopes := c.scopes, cancellation := c.cancellation } :=
  beside c c.diagnostics c.scopes c.cancellation

theorem Context.Beside.scopes (c : Context) : (f c).scopes = c.scopes := by
  rw [beside.same]

/-- A decision changes the same beside it. -/
theorem Context.Beside.apply (change : Edit) (c : Context) : change.apply (f c) = f (change.apply c) := by
  have same := beside.same c
  cases change with
  | report d =>
    rw [same]
    exact (beside c (c.diagnostics ++ [d]) c.scopes c.cancellation).symm
  | pushScope =>
    rw [same]
    exact (beside c c.diagnostics ([] :: c.scopes) c.cancellation).symm
  | cancel =>
    rw [same]
    exact (beside c c.diagnostics c.scopes .set).symm
  | declare name =>
    simp only [Edit.apply, Context.declare, beside.scopes]
    split
    · rfl
    next scope rest _ =>
      rw [same]
      exact (beside c c.diagnostics _ c.cancellation).symm
  | popScope =>
    simp only [Edit.apply, Context.popScope, beside.scopes]
    split
    next outer rest _ =>
      rw [same]
      exact (beside c c.diagnostics (outer :: rest) c.cancellation).symm
    · rfl

/-- The same local variables are reported beside it. -/
theorem Context.Beside.warnUnset (r : Registry) (reads : List (Span × String)) (c : Context) :
    Parse.warnUnset r reads (f c) = f (Parse.warnUnset r reads c) := by
  unfold Parse.warnUnset
  split
  · refine List.foldl_hom f fun c read => ?_
    have declared : (f c).isDeclared read.2 = c.isDeclared read.2 := by
      unfold Context.isDeclared
      rw [beside.scopes]
    dsimp only
    rw [declared]
    split
    · rfl
    · exact beside.apply (.report _) c
  · rfl

end Beside

namespace Parse

/-- A decision that has no text parsed leaves what is being tried alone. -/
theorem trials_carryOut (r : Registry) (read : Reader) {action : Action} (quiet : action.ParsesNothing)
    (c : Context) : (carryOut r read action c).2.trials = c.trials := by
  induction action generalizing c with
  | accept | reject => rfl
  | look next ih => exact ih (r.view c) (quiet (r.view c)) c
  | edit change next ih => exact (ih quiet (change.apply c)).trans (change.trials_apply c)
  | parse => exact quiet.elim

/-- Carrying out a decision that only looks comes to its verdict, and leaves the state alone. -/
theorem carryOut_verdict {r : Registry} {read : Reader} {action : Action} {c : Context}
    {verdict : Except String Node} (h : action.verdict? (r.view c) = some verdict) :
    carryOut r read action c = (verdict, c) := by
  induction action with
  | accept node =>
    cases h
    rfl
  | reject reason =>
    cases h
    rfl
  | look next ih => exact ih (r.view c) h
  | edit => cases h
  | parse => cases h

/-- What is accepted is what the decision may accept. -/
theorem carryOut_accepts {r : Registry} {read : Reader} {P : Node → Prop} {action : Action}
    (accepts : action.Accepts P) {c c' : Context} {node : Node}
    (h : carryOut r read action c = (.ok node, c')) : P node := by
  induction action generalizing c with
  | accept =>
    cases h
    exact accepts
  | reject => cases h
  | look next ih => exact ih (r.view c) (accepts (r.view c)) h
  | edit change next ih => exact ih accepts h
  | parse text types next ih => exact ih _ (accepts _) h

end Parse

end Phrasebook
