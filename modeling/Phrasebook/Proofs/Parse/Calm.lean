import Phrasebook.Parse.Line
import Phrasebook.Proofs.Parse.Alike
import Phrasebook.Proofs.Parse.Respected
import Phrasebook.Proofs.Parse.Uncancelled

/-!
# Parses that nobody cancels

Where neither the outside nor a decision asks to cancel, no parse is ever cancelled. So a line fails there for two
reasons only: nothing fits it, or it runs into the recursion limit.
-/

namespace Phrasebook
open Text Parse

/-- Nobody asks to cancel. -/
def Context.IsCalm (c : Context) : Prop :=
  c.cancellation = {}

/-- A change that is no request to cancel leaves the requests alone. -/
theorem Edit.cancellation_apply {change : Edit} (other : change ≠ .cancel) (c : Context) :
    (change.apply c).cancellation = c.cancellation := by
  cases change with
  | report | pushScope => rfl
  | cancel => exact (other rfl).elim
  | declare name =>
    simp only [apply, Context.declare]
    split <;> rfl
  | popScope =>
    simp only [apply, Context.popScope]
    split <;> rfl

theorem Parse.cancellation_warnUnset (r : Registry) (reads : List (Span × String)) (c : Context) :
    (warnUnset r reads c).cancellation = c.cancellation := by
  obtain ⟨_, reported⟩ := exists_warnUnset r reads c
  rw [reported]

namespace Parse

variable {β γ : Type}

/-- A step keeps the calm. -/
def KeepsCalm (step : Context → β × Context) : Prop :=
  ∀ c, c.IsCalm → (step c).2.IsCalm

/-- In the calm a step fails at the recursion limit only, and it keeps the calm. -/
def Undisturbed (x : Parsing β) : Prop :=
  ∀ c, c.IsCalm → (x c).2.IsCalm ∧ ∀ cause, (x c).1 = .error cause → ∃ limit, cause = .recursionLimit limit

theorem undisturbed_pure (b : β) : Undisturbed (pure b : Parsing β) :=
  fun _ calm => ⟨calm, nofun⟩

theorem Undisturbed.bind {x : Parsing β} {f : β → Parsing γ} (first : Undisturbed x)
    (second : ∀ b, Undisturbed (f b)) : Undisturbed (x >>= f) := by
  intro c calm
  obtain ⟨calm', limited⟩ := first c calm
  cases ran : x c with
  | mk result c' =>
    rw [ran] at calm' limited
    cases result with
    | error cause =>
      rw [bind_error ran]
      refine ⟨calm', fun cause' same => ?_⟩
      cases same
      exact limited cause rfl
    | ok b =>
      rw [Ends.bind_apply ran]
      exact second b c' calm'

theorem undisturbed_checkCancelled : Undisturbed Parsing.checkCancelled := by
  intro c calm
  rw [ends_checkCancelled_calm calm]
  exact ⟨calm, nofun⟩

theorem Undisturbed.orUndone {x : Parsing (Option β)} (h : Undisturbed x) : Undisturbed (orUndone x) := by
  have checkpoint : Undisturbed Parsing.checkpoint := fun _ calm => ⟨calm, nofun⟩
  refine checkpoint.bind fun before => h.bind fun b? => ?_
  cases b? with
  | none =>
    have undo : Undisturbed (Parsing.change fun c => c.rollback before) := fun _ calm => ⟨calm, nofun⟩
    exact undo.bind fun _ => undisturbed_pure _
  | some b => exact undisturbed_pure _

theorem respected_undisturbed (line : Line) : Respected line fun _ x _ => Undisturbed x where
  pure := undisturbed_pure
  bind := Undisturbed.bind
  checkCancelled := undisturbed_checkCancelled
  isTrying _ _ _ := fun _ calm => ⟨calm, nofun⟩
  countTrial := fun _ calm => ⟨calm, nofun⟩
  lookBack _ _ _ := fun _ calm => ⟨calm, nofun⟩
  remember _ _ _ _ := fun _ calm => ⟨calm, nofun⟩
  spanOf _ _ := fun _ calm => ⟨calm, nofun⟩
  orUndone := Undisturbed.orUndone
  deeper h := fun c calm => h c.deepen calm

section Reading

variable {r : Registry} {read : Reader} {line : Line} {start stop : Nat}

theorem keepsCalm_readText (text : String) (types : List PatternType)
    (parts : ∀ start stop target, Undisturbed (read (Line.ofString text) start stop target)) :
    KeepsCalm (readText r read text types) := by
  intro c calm
  obtain ⟨calm', -⟩ := parts 0 (Line.ofString text).size (.ofTypes types) { c with rejections := {} } calm
  unfold readText
  dsimp only
  generalize read _ _ _ _ _ = ran at calm' ⊢
  obtain ⟨result, after⟩ := ran
  rcases result with cause | e | reason
  · exact calm'
  · exact (cancellation_warnUnset r e.localReads _).trans calm'
  · exact calm'

/-- A decision that never asks to cancel keeps the calm. -/
theorem keepsCalm_carryOut (texts : ∀ text types, KeepsCalm (readText r read text types)) {action : Action}
    (never : action.NeverCancels) : KeepsCalm (carryOut r read action) := by
  induction action with
  | accept | reject => exact fun _ calm => calm
  | look next ih => exact fun c => ih (r.view c) (never (r.view c)) c
  | edit change next ih =>
    intro c calm
    exact ih never.2 (change.apply c) ((change.cancellation_apply never.1 c).trans calm)
  | parse text types next ih =>
    intro c calm
    exact ih _ (never _) _ (texts text types c calm)

/-- **A candidate is tried undisturbed** if its decision never asks to cancel. -/
theorem undisturbed_tryCandidate {x : Candidate} (never : ∀ node, (x.definition.decide node).NeverCancels)
    (parts : ∀ line start stop target, Undisturbed (read line start stop target)) :
    Undisturbed (tryCandidate r read line start stop x) := by
  let resolve (p : Pattern.Placeholder) (start stop : Nat) := read line start stop (.ofPlaceholder p)
  have matched : Undisturbed (matchCandidate read line start stop x) := fun c calm =>
    @Match.related_run _ _ _ _ _ (respected_undisturbed line).toComposes _ _ _ _ _ resolve resolve
      (fun p low high _ _ _ => parts line low high _) _ calm
  intro c calm
  obtain ⟨calm', limited⟩ := matched c calm
  unfold tryCandidate Parsing.of
  dsimp only
  generalize matchCandidate read line start stop x c = ran at calm' limited ⊢
  obtain ⟨result, c'⟩ := ran
  rcases result with cause | failure | found
  · refine ⟨calm', fun cause' same => ?_⟩
    cases same
    exact limited cause rfl
  · exact ⟨calm', nofun⟩
  · have texts (text : String) (types : List PatternType) : KeepsCalm (readText r read text types) :=
      keepsCalm_readText text types (parts (Line.ofString text))
    have decided := keepsCalm_carryOut texts (never (nodeOf x found (c'.span (stretchOf line start stop)))) c' calm'
    dsimp only
    generalize carryOut r read _ c' = carried at decided ⊢
    obtain ⟨node | reason, c''⟩ := carried <;> exact ⟨decided, nofun⟩

variable (never : ∀ category, ∀ x ∈ r.candidates category, ∀ node, (x.definition.decide node).NeverCancels)

include never

theorem undisturbed_reader (levels : Nat) (line : Line) (start stop : Nat) (target : Target) :
    Undisturbed (r.reader levels line start stop target) := by
  refine @Respected.reader (fun _ x => Undisturbed x) r (fun _ => True)
    (fun line _ => respected_undisturbed line) (fun line start stop target _ => ?_)
    (fun read below line start stop target _ category _ x among => ?_) levels line start stop target trivial
  · refine undisturbed_checkCancelled.bind fun _ c calm => ⟨calm, fun cause limited => ?_⟩
    cases limited
    exact ⟨c.maxDepth, rfl⟩
  · exact undisturbed_tryCandidate (never category x among) fun line start stop target =>
      below line start stop target trivial

/-- **A line that nobody cancels** fails because nothing fits it or at the recursion limit, and the calm is kept. -/
theorem parseLine_calm {c c' : Context} (calm : c.IsCalm) {category : Category} {text : String}
    {result : Except Fault Node} (parsed : r.parseLine category text c = (result, c')) :
    c'.IsCalm ∧ ∀ fault, result = .error fault →
      (∃ near, fault.cause = .noMatch category.name (trimString text) near) ∨
        ∃ limit, fault.cause = .recursionLimit limit := by
  have matched : Undisturbed (matchLine r (r.reader c.remainingDepth) category (Line.ofString text)) :=
    @Respected.matchLine _ (Line.ofString text) (respected_undisturbed _) r r (r.reader c.remainingDepth)
      (r.reader c.remainingDepth) category rfl fun _ _ x among =>
        undisturbed_tryCandidate (never category x among) (undisturbed_reader never c.remainingDepth)
  obtain ⟨calm', limited⟩ := matched { c with nearMisses := [], rejections := {} } calm
  simp only [Registry.parseLine, parseLineBy] at parsed
  generalize matchLine r (r.reader c.remainingDepth) category (Line.ofString text) _ = ran at calm' limited parsed
  obtain ⟨outcome, after⟩ := ran
  rcases outcome with cause | ⟨_ | node, attempts⟩
  · cases parsed
    refine ⟨calm', fun fault same => .inr ?_⟩
    cases same
    exact limited cause rfl
  · cases parsed
    refine ⟨calm', fun fault same => .inl ?_⟩
    cases same
    exact ⟨_, rfl⟩
  · cases parsed
    exact ⟨(cancellation_warnUnset r node.localReads _).trans calm', nofun⟩

end Reading

end Parse

end Phrasebook
