import Phrasebook.Parse.Line
import Phrasebook.Proofs.Decision
import Phrasebook.Proofs.Parse.Respected
import Phrasebook.Proofs.Step

/-!
# The name of the source

A state knows the name of the source that is being parsed, so a decision may depend on it, and a fault tells it.
Nothing else looks at it. So where no decision does, a line is parsed alike under every name, up to the name in
its fault.
-/

namespace Phrasebook
open Text Parse

/-- A state with another name of the source. -/
def Context.withSource (c : Context) (source : Option String) : Context :=
  { c with source }

theorem Context.beside_withSource (source : Option String) : Beside (·.withSource source) :=
  fun _ _ _ _ => rfl

/-- A fault in a source with another name. -/
def Fault.withSource (f : Fault) (source : Option String) : Fault :=
  { f with place := f.place.map fun place => { place with source } }

/-- A decision is the same under every name of the source, also where the name comes back in a fault. -/
def Action.IgnoresSource : Action → Prop
  | .accept _ | .reject _ => True
  | .look next => ∀ view, (∀ source, next { view with source } = next view) ∧ (next view).IgnoresSource
  | .edit _ next => next.IgnoresSource
  | .parse _ _ next => ∀ result : Except Fault Expr,
      (∀ source, next (result.mapError (·.withSource source)) = next result) ∧ (next result).IgnoresSource

/-- No decision of a registry depends on the name of the source. -/
def Registry.IgnoresSource (r : Registry) : Prop :=
  ∀ category, ∀ x ∈ r.candidates category, ∀ node, (x.definition.decide node).IgnoresSource

namespace Parse

variable {β γ : Type}

/-- A step does the same under every name of the source. -/
def IgnoresSource (step : Context → β × Context) : Prop :=
  ∀ c source, step (c.withSource source) = ((step c).1, (step c).2.withSource source)

/-- A step does the same under every name of the source, except that a fault tells the name. -/
def TellsSource (step : Context → Except Fault β × Context) : Prop :=
  ∀ c source, step (c.withSource source) =
    ((step c).1.mapError (·.withSource source), (step c).2.withSource source)

theorem ignoresSource_pure (b : β) : IgnoresSource (pure b : Parsing β) :=
  fun _ _ => rfl

theorem IgnoresSource.bind {x : Parsing β} {f : β → Parsing γ} (first : IgnoresSource x)
    (second : ∀ b, IgnoresSource (f b)) : IgnoresSource (x >>= f) := by
  intro c source
  have same := first c source
  cases ran : x c with
  | mk result c' =>
    rw [ran] at same
    cases result with
    | error cause => rw [bind_error ran, bind_error same]
    | ok b =>
      rw [Ends.bind_apply ran, Ends.bind_apply same]
      exact second b c' source

theorem ignoresSource_checkCancelled : IgnoresSource Parsing.checkCancelled := by
  intro c source
  have same : (c.withSource source).cancellation = c.cancellation := rfl
  simp only [Parsing.checkCancelled, Parsing.of, same]
  split <;> rfl

theorem IgnoresSource.orUndone {x : Parsing (Option β)} (h : IgnoresSource x) : IgnoresSource (orUndone x) := by
  have checkpoint : IgnoresSource Parsing.checkpoint := fun _ _ => rfl
  refine checkpoint.bind fun before => h.bind fun b? => ?_
  cases b? with
  | none =>
    have undo : IgnoresSource (Parsing.change fun c => c.rollback before) := fun _ _ => rfl
    exact undo.bind fun _ => ignoresSource_pure _
  | some b => exact ignoresSource_pure _

theorem IgnoresSource.bracket {x : Parsing β} (h : IgnoresSource x) {enter leave : Context → Context}
    (enters : ∀ c source, enter (c.withSource source) = (enter c).withSource source)
    (leaves : ∀ c source, leave (c.withSource source) = (leave c).withSource source) :
    IgnoresSource (Parsing.bracket enter leave x) := by
  intro c source
  simp only [Parsing.bracket, Parsing.of, enters, h (enter c) source, leaves]
  rfl

theorem respected_ignoresSource (line : Line) : Respected line fun _ x _ => IgnoresSource x where
  pure := ignoresSource_pure
  bind := IgnoresSource.bind
  checkCancelled := ignoresSource_checkCancelled
  isTrying _ _ _ := fun _ _ => rfl
  countTrial := fun _ _ => rfl
  lookBack _ _ _ := fun _ _ => rfl
  remember _ _ _ _ := fun _ _ => rfl
  spanOf _ _ := fun _ _ => rfl
  orUndone := IgnoresSource.orUndone
  deeper h := h.bracket (fun _ _ => rfl) fun _ _ => rfl

section Reading

variable {r : Registry} {read : Reader} {line : Line} {start stop : Nat}

theorem tellsSource_readText (text : String) (types : List PatternType)
    (parts : ∀ start stop target, IgnoresSource (read (Line.ofString text) start stop target)) :
    TellsSource (readText r read text types) := by
  intro c source
  have same := parts 0 (Line.ofString text).size (.ofTypes types) { c with rejections := {} } source
  have started : ({ c.withSource source with rejections := {} } : Context) =
    Context.withSource { c with rejections := {} } source := rfl
  simp only [readText, started, same]
  generalize read _ _ _ _ _ = ran
  obtain ⟨result, after⟩ := ran
  rcases result with cause | e | reason
  · rfl
  · exact Prod.ext rfl
      ((Context.beside_withSource source).warnUnset r e.localReads { after with rejections := c.rejections })
  · rfl

/-- A decision is carried out alike if it does not look at the name, and its texts are read alike. -/
theorem ignoresSource_carryOut (texts : ∀ text types, TellsSource (readText r read text types))
    {action : Action} (ignores : action.IgnoresSource) : IgnoresSource (carryOut r read action) := by
  induction action with
  | accept | reject => exact fun _ _ => rfl
  | look next ih =>
    intro c source
    obtain ⟨same, ignores⟩ := ignores (r.view c)
    have seen : next (r.view (c.withSource source)) = next (r.view c) := same source
    simp only [carryOut, seen]
    exact ih (r.view c) ignores c source
  | edit change next ih =>
    intro c source
    have edited : change.apply (c.withSource source) = (change.apply c).withSource source :=
      (Context.beside_withSource source).apply change c
    simp only [carryOut, edited]
    exact ih ignores (change.apply c) source
  | parse text types next ih =>
    intro c source
    obtain ⟨same, ignores⟩ := ignores (readText r read text types c).1
    simp only [carryOut, texts text types c source, same source]
    exact ih _ ignores _ source

/-- **A candidate is tried alike** if its decision does not look at the name. -/
theorem ignoresSource_tryCandidate {x : Candidate} (ignores : ∀ node, (x.definition.decide node).IgnoresSource)
    (parts : ∀ line start stop target, IgnoresSource (read line start stop target)) :
    IgnoresSource (tryCandidate r read line start stop x) := by
  let resolve (p : Pattern.Placeholder) (start stop : Nat) := read line start stop (.ofPlaceholder p)
  have matched : IgnoresSource (matchCandidate read line start stop x) := by
    unfold matchCandidate
    refine IgnoresSource.bracket ?_ (fun _ _ => rfl) fun _ _ => rfl
    exact @Match.related_run _ _ _ _ _ (respected_ignoresSource line).toComposes _ _ _ _ _ resolve resolve
      fun p low high _ _ _ => parts line low high _
  intro c source
  simp only [tryCandidate, Parsing.of, matched c source]
  cases matchCandidate read line start stop x c with
  | mk result c' =>
    rcases result with cause | failure | found
    · rfl
    · rfl
    · have texts (text : String) (types : List PatternType) : TellsSource (readText r read text types) :=
        tellsSource_readText text types (parts (Line.ofString text))
      let node := nodeOf x found (c'.span (stretchOf line start stop))
      have decided := ignoresSource_carryOut texts (ignores node) c' source
      have span : (c'.withSource source).span (stretchOf line start stop) =
        c'.span (stretchOf line start stop) := rfl
      dsimp only
      rw [span, decided]
      generalize carryOut r read (x.definition.decide node) c' = carried
      obtain ⟨node | reason, c''⟩ := carried <;> rfl

variable (ignores : r.IgnoresSource)

include ignores

theorem ignoresSource_reader (levels : Nat) (line : Line) (start stop : Nat) (target : Target) :
    IgnoresSource (r.reader levels line start stop target) := by
  refine @Respected.reader (fun _ x => IgnoresSource x) r (fun _ => True)
    (fun line _ => respected_ignoresSource line) (fun line start stop target _ => ?_)
    (fun read below line start stop target _ category _ x among => ?_) levels line start stop target trivial
  · exact ignoresSource_checkCancelled.bind fun _ _ _ => rfl
  · exact ignoresSource_tryCandidate (ignores category x among) fun line start stop target =>
      below line start stop target trivial

theorem ignoresSource_matchLine (levels : Nat) (category : Category) (line : Line) :
    IgnoresSource (matchLine r (r.reader levels) category line) :=
  @Respected.matchLine _ line (respected_ignoresSource line) r r (r.reader levels) (r.reader levels) category rfl
    fun _ _ x among => ignoresSource_tryCandidate (ignores category x among) (ignoresSource_reader ignores levels)

/-- **A line is parsed alike under every name of the source.** -/
theorem tellsSource_parseLine (category : Category) (text : String) : TellsSource (r.parseLine category text) := by
  intro c source
  have matched := ignoresSource_matchLine ignores c.remainingDepth category (Line.ofString text)
    { c with nearMisses := [], rejections := {} } source
  have started : ({ c.withSource source with nearMisses := [], rejections := {} } : Context) =
    Context.withSource { c with nearMisses := [], rejections := {} } source := rfl
  have levels : (c.withSource source).remainingDepth = c.remainingDepth := rfl
  simp only [Registry.parseLine, parseLineBy, started, levels, matched]
  generalize matchLine r (r.reader c.remainingDepth) category _ _ = ran
  obtain ⟨result, after⟩ := ran
  rcases result with cause | ⟨_ | node, attempts⟩
  · rfl
  · rfl
  · exact Prod.ext rfl ((Context.beside_withSource source).warnUnset r node.localReads
      { after with rejections := c.rejections })

end Reading

end Parse

end Phrasebook
