import Phrasebook.Parse.Line
import Phrasebook.Proofs.Decision
import Phrasebook.Proofs.Parse.Parts
import Phrasebook.Proofs.Step

/-!
# Parses that nobody cancels

If no decision learns of it, a request to cancel ends a parse, and does nothing else to it. So a parse is compared
with the same parse without requests: it runs in a state in which none comes, and its definitions do not ask for
one. `Unaltered` says that a step comes to what it comes to there, or is cancelled; every way to put steps together
keeps it.
-/

namespace Phrasebook
open Text

/-- A decision without its requests to cancel. -/
def Action.uncancelled : Action → Action
  | .accept node => .accept node
  | .reject reason => .reject reason
  | .look next => .look fun view => (next view).uncancelled
  | .edit .cancel next => next.uncancelled
  | .edit change next => .edit change next.uncancelled
  | .parse text types next => .parse text types fun result => (next result).uncancelled

/-- A definition that never asks to cancel. -/
def Definition.uncancelled (d : Definition) : Definition :=
  { d with decide := fun node => (d.decide node).uncancelled }

def Candidate.uncancelled (candidate : Candidate) : Candidate :=
  { candidate with definition := candidate.definition.uncancelled }

/-- A registry none of whose definitions asks to cancel. -/
def Registry.uncancelled (r : Registry) : Registry :=
  { r with
    definitions := r.definitions.map Definition.uncancelled
    candidates := fun category => (r.candidates category).map Candidate.uncancelled }

/-- A decision never asks to cancel, whatever it sees of the state and its texts are parsed as. -/
def Action.NeverCancels : Action → Prop
  | .accept _ | .reject _ => True
  | .look next => ∀ view, (next view).NeverCancels
  | .edit change next => change ≠ .cancel ∧ next.NeverCancels
  | .parse _ _ next => ∀ result, (next result).NeverCancels

/-- A decision is the same whether the parse has been asked to stop or not, whatever else it sees of the state. -/
def Action.IgnoresRequests : Action → Prop
  | .accept _ | .reject _ => True
  | .look next => ∀ view, (∀ cancelled, next { view with cancelled } = next view) ∧ (next view).IgnoresRequests
  | .edit _ next => next.IgnoresRequests
  | .parse _ _ next => ∀ result, (next result).IgnoresRequests

/-- No decision of a registry looks at requests to cancel. -/
def Registry.IgnoresRequests (r : Registry) : Prop :=
  ∀ category, ∀ x ∈ r.candidates category, ∀ node, (x.definition.decide node).IgnoresRequests

/-- A decision cannot learn of a request to cancel: it neither looks for one, nor has a text parsed, which would
end with it. -/
structure Action.IsUnaware (action : Action) : Prop where
  quiet : action.ParsesNothing
  ignores : action.IgnoresRequests

/-- A request that is not to cancel stays. -/
theorem Action.uncancelled_edit {change : Edit} (other : change ≠ .cancel) (next : Action) :
    (Action.edit change next).uncancelled = .edit change next.uncancelled := by
  cases change with
  | cancel => exact (other rfl).elim
  | report | declare | pushScope | popScope => rfl

/-- A state in which no request to cancel comes. -/
def Context.uncancelled (c : Context) : Context :=
  { c with cancellation := {} }

/-- A change of the state has nothing to do with requests to cancel. -/
def Context.Neutral (change : Context → Context) : Prop :=
  ∀ c, change c.uncancelled = (change c).uncancelled

namespace Context

theorem neutral_popScope : Neutral popScope := by
  intro c
  have same : c.uncancelled.scopes = c.scopes := rfl
  unfold popScope
  rw [same]
  rcases c.scopes with _ | ⟨_, _ | ⟨_, _⟩⟩ <;> rfl

theorem neutral_declare (name : String) : Neutral (declare · name) := by
  intro c
  have same : c.uncancelled.scopes = c.scopes := rfl
  unfold declare
  dsimp only
  rw [same]
  cases c.scopes <;> rfl

theorem neutral_report (d : Context → Diagnostic) (same : ∀ c, d c.uncancelled = d c) :
    Neutral fun c => c.report (d c) := by
  intro c
  dsimp only
  rw [same]
  rfl

theorem Neutral.foldl {β : Type} {f : Context → β → Context} (neutral : ∀ b, Neutral (f · b)) (bs : List β) :
    Neutral (bs.foldl f) := by
  induction bs with
  | nil => exact fun _ => rfl
  | cons b bs ih =>
    intro c
    have first : f c.uncancelled b = (f c b).uncancelled := neutral b c
    show bs.foldl f (f c.uncancelled b) = _
    rw [first]
    exact ih (f c b)

end Context

/-- A change is a request to cancel, of which nothing is left, or has nothing to do with one. -/
theorem Edit.uncancelled_apply (change : Edit) (c : Context) :
    change = .cancel ∧ (change.apply c).uncancelled = c.uncancelled ∨
      change ≠ .cancel ∧ change.apply c.uncancelled = (change.apply c).uncancelled := by
  cases change with
  | cancel => exact .inl ⟨rfl, rfl⟩
  | report d => exact .inr ⟨nofun, rfl⟩
  | declare name => exact .inr ⟨nofun, Context.neutral_declare name c⟩
  | pushScope => exact .inr ⟨nofun, rfl⟩
  | popScope => exact .inr ⟨nofun, Context.neutral_popScope c⟩

namespace Parse

/-- **A decision that cannot learn of a request comes to the same** without those it makes. -/
theorem carryOut_uncancelled (r : Registry) (read read' : Reader) {action : Action}
    (unaware : action.IsUnaware) (c : Context) :
    carryOut r.uncancelled read' action.uncancelled c.uncancelled =
      ((carryOut r read action c).1, (carryOut r read action c).2.uncancelled) := by
  induction action generalizing c with
  | accept | reject => rfl
  | look next ih =>
    obtain ⟨same, ignores⟩ := unaware.ignores (r.view c)
    have seen : next (r.uncancelled.view c.uncancelled) = next (r.view c) := same _
    simp only [Action.uncancelled, carryOut, seen]
    exact ih (r.view c) ⟨unaware.quiet (r.view c), ignores⟩ c
  | edit change next ih =>
    have after := ih ⟨unaware.quiet, unaware.ignores⟩ (change.apply c)
    rcases change.uncancelled_apply c with ⟨rfl, same⟩ | ⟨other, neutral⟩
    · rw [same] at after
      exact after
    · rw [← neutral] at after
      rw [Action.uncancelled_edit other]
      exact after
  | parse => exact unaware.quiet.elim

/-- The errors of a step that was cancelled. -/
def Stopped (cause : Cause) : Prop :=
  cause = .cancelled

/-- Without requests to cancel a step comes to a result, or fails as it may; with them it comes to the same, or
is stopped. `f` takes the requests out of what the step returns. -/
def Unaltered {ε β γ : Type} (stopped fails : ε → Prop) (f : β → γ) (x : ExceptT ε (StateM Context) β)
    (y : ExceptT ε (StateM Context) γ) : Prop :=
  ∀ c, ∃ result c', y c.uncancelled = (result.map f, c'.uncancelled) ∧
    (∀ e, result = .error e → fails e) ∧
    (x c = (result, c') ∨ ∃ e c'', x c = (.error e, c'') ∧ stopped e)

section Steps

variable {β γ β' γ' : Type} {fails : Cause → Prop}

/-- A step that is not cancelled is unaltered if it ends in the same way. -/
theorem unaltered_of_ends {f : β → γ} {x : Parsing β} {y : Parsing γ}
    (ends : ∀ c, ∃ b c', x c = (.ok b, c') ∧ y c.uncancelled = (.ok (f b), c'.uncancelled)) :
    Unaltered Stopped fails f x y := by
  intro c
  obtain ⟨b, c', ends, without⟩ := ends c
  exact ⟨.ok b, c', without, (fun _ failed => nomatch failed), .inl ends⟩

theorem unaltered_pure {f : β → γ} (b : β) : Unaltered Stopped fails f (pure b) (pure (f b)) :=
  unaltered_of_ends fun c => ⟨b, c, rfl, rfl⟩

theorem unaltered_throw {f : β → γ} {cause : Cause} (fault : fails cause) :
    Unaltered Stopped fails f (throw cause) (throw cause) := by
  intro c
  have may (e : Cause) (failed : (Except.error cause : Except Cause β) = .error e) : fails e := by
    cases failed
    exact fault
  exact ⟨.error cause, c, rfl, may, .inl rfl⟩

theorem Unaltered.bind {f : β → γ} {f' : β' → γ'} {x : Parsing β} {y : Parsing γ} {next : β → Parsing β'}
    {next' : γ → Parsing γ'} (first : Unaltered Stopped fails f x y)
    (second : ∀ b, Unaltered Stopped fails f' (next b) (next' (f b))) :
    Unaltered Stopped fails f' (x >>= next) (y >>= next') := by
  intro c
  obtain ⟨result, c', without, may, ends⟩ := first c
  cases result with
  | error cause =>
    refine ⟨.error cause, c', bind_error without, fun e same => may e (by cases same; rfl), ?_⟩
    rcases ends with same | ⟨e, c'', cancelled, stopped⟩
    · exact .inl (bind_error same)
    · exact .inr ⟨e, c'', bind_error cancelled, stopped⟩
  | ok b =>
    obtain ⟨result', d, without', may', ends'⟩ := second b c'
    have first : Ends y c.uncancelled (f b) c'.uncancelled := without
    refine ⟨result', d, first.bind_apply.trans without', may', ?_⟩
    rcases ends with same | ⟨e, c'', cancelled, stopped⟩
    · have ends : Ends x c b c' := same
      rw [ends.bind_apply]
      exact ends'
    · exact .inr ⟨e, c'', bind_error cancelled, stopped⟩

theorem Unaltered.andThen {f' : β' → γ'} {x y : Parsing β} {next : β → Parsing β'} {next' : β → Parsing γ'}
    (first : Unaltered Stopped fails id x y) (second : ∀ b, Unaltered Stopped fails f' (next b) (next' b)) :
    Unaltered Stopped fails f' (x >>= next) (y >>= next') :=
  first.bind second

/-- The steps that are unaltered, whatever their results are. -/
def unalteredRelation (fails : Cause → Prop) : StepRelation Parsing :=
  fun _ x y => Unaltered Stopped fails id x y

theorem composes_unaltered : (unalteredRelation fails).Composes :=
  ⟨unaltered_pure, Unaltered.andThen⟩

/-- The rest of a parse may depend on the state, though not on requests to cancel. -/
theorem unaltered_context {f : β → γ} {next next' : Context → Parsing _}
    (h : ∀ c, Unaltered Stopped fails f (next c) (next' c.uncancelled)) :
    Unaltered Stopped fails f (Parsing.context >>= next) (Parsing.context >>= next') :=
  fun c => h c c

theorem unaltered_checkpoint : Unaltered Stopped fails id Parsing.checkpoint Parsing.checkpoint :=
  unaltered_of_ends fun c => ⟨c.checkpoint, c, rfl, rfl⟩

theorem unaltered_change {change : Context → Context} (neutral : Context.Neutral change) :
    Unaltered Stopped fails id (Parsing.change change) (Parsing.change change) :=
  unaltered_of_ends fun c => ⟨(), change c, rfl, congrArg (Prod.mk _) (neutral c)⟩

/-- Where the state is checked, requests to cancel take effect. -/
theorem unaltered_checkCancelled : Unaltered Stopped fails id Parsing.checkCancelled Parsing.checkCancelled := by
  intro c
  refine ⟨.ok (), { c with cancellation := c.cancellation.tick }, rfl, (fun _ failed => nomatch failed), ?_⟩
  by_cases set : c.cancellation.isSet = true
  · refine .inr ⟨.cancelled, c, ?_, rfl⟩
    simp [Parsing.checkCancelled, Parsing.of, set]
  · refine .inl ?_
    simp [Parsing.checkCancelled, Parsing.of, set]

/-- A step that goes on with whatever another one comes to is unaltered if what it does with it is. -/
theorem Unaltered.finish {ε ε' : Type} {stopped fails : ε → Prop} {stopped' fails' : ε' → Prop}
    {f : β → γ} {f' : β' → γ'} {x : ExceptT ε (StateM Context) β}
    {y : ExceptT ε (StateM Context) γ} {x' : ExceptT ε' (StateM Context) β'}
    {y' : ExceptT ε' (StateM Context) γ'} (h : Unaltered stopped fails f x y)
    (finish : Context → Except ε β × Context → Except ε' β' × Context)
    (finish' : Context → Except ε γ × Context → Except ε' γ' × Context)
    {enter : Context → Context} (enters : Context.Neutral enter)
    (first : ∀ c, x' c = finish c (x (enter c))) (second : ∀ c, y' c = finish' c (y (enter c)))
    (cancelled : ∀ c e c', stopped e → ∃ e' c'', finish c (.error e, c') = (.error e', c'') ∧ stopped' e')
    (finishes : ∀ c result c', (∀ e, result = .error e → fails e) →
      finish' c.uncancelled (result.map f, c'.uncancelled) =
        ((finish c (result, c')).1.map f', (finish c (result, c')).2.uncancelled) ∧
      ∀ e, (finish c (result, c')).1 = .error e → fails' e) :
    Unaltered stopped' fails' f' x' y' := by
  intro c
  obtain ⟨result, c', without, may, ends⟩ := h (enter c)
  obtain ⟨same, may'⟩ := finishes c result c' may
  refine ⟨(finish c (result, c')).1, (finish c (result, c')).2, ?_, may', ?_⟩
  · rw [second, enters, without, same]
  · rw [first]
    rcases ends with ends | ⟨e, c'', ends, stops⟩
    · exact .inl (by rw [ends])
    · rw [ends]
      exact .inr (cancelled c e c'' stops)

theorem Unaltered.bracket {f : β → γ} {x : Parsing β} {y : Parsing γ} (h : Unaltered Stopped fails f x y)
    {enter leave : Context → Context} (enters : Context.Neutral enter) (leaves : Context.Neutral leave) :
    Unaltered Stopped fails f (Parsing.bracket enter leave x) (Parsing.bracket enter leave y) :=
  h.finish (fun _ ended => (ended.1, leave ended.2)) (fun _ ended => (ended.1, leave ended.2)) enters
    (fun _ => rfl) (fun _ => rfl)
    (fun _ e c' stops => ⟨e, leave c', rfl, stops⟩)
    fun _ result c' may => ⟨congrArg (Prod.mk (result.map f)) (leaves c'), may⟩

theorem Unaltered.orUndone {x y : Parsing (Option β)} (h : Unaltered Stopped fails id x y) :
    Unaltered Stopped fails id (orUndone x) (orUndone y) := by
  refine unaltered_checkpoint.bind fun before => h.bind fun b? => ?_
  cases b? with
  | none =>
    have undo : Context.Neutral fun c => c.rollback before := fun _ => rfl
    exact (unaltered_change undo).bind fun _ => unaltered_pure none
  | some b => exact unaltered_pure (some b)

end Steps

/-- The recursion limit alone makes reading fail if nobody cancels it. -/
def AtLimit (cause : Cause) : Prop :=
  ∃ limit, cause = .recursionLimit limit

/-- An attempt whose definition never asks to cancel. -/
def Attempt.uncancelled (a : Attempt) : Attempt :=
  { a with candidate := a.candidate.uncancelled }

/-- What came of trying candidates, as definitions that never ask to cancel report it. -/
def uncancelledAttempts {β : Type} (tried : β × List Attempt) : β × List Attempt :=
  (tried.1, tried.2.map Attempt.uncancelled)

/-- Two readers of one line, one of which is never cancelled, read every stretch unaltered. -/
def UnalteredReaders (line : Line) (read read' : Reader) : Prop :=
  ∀ start stop target, Unaltered Stopped AtLimit id (read line start stop target) (read' line start stop target)

/-- What a decision comes to once it was carried out. -/
def conclude (before : Context) : Except String Node × Context → Except Cause (Except Miss Node) × Context
  | (.ok node, c) => (.ok (.ok node), c)
  | (.error reason, c) => (.ok (.error (.refused reason)), c.rollback before.checkpoint)

/-- What a candidate comes to once its pattern was tried. -/
def settle (r : Registry) (read : Reader) (line : Line) (start stop : Nat) (candidate : Candidate)
    (before : Context) :
    Except Cause (Except (Match.Failure Rejection) (Match.Found Expr)) × Context →
      Except Cause (Except Miss Node) × Context
  | (.error cause, c) => (.error cause, c.rollback before.checkpoint)
  | (.ok (.error failure), c) => (.ok (.error (.unmatched failure)), c.rollback before.checkpoint)
  | (.ok (.ok found), c) =>
    let node := nodeOf candidate found (c.span (stretchOf line start stop))
    conclude before (carryOut r read (candidate.definition.decide node) c)

section Forms

variable {r : Registry} {line : Line} {read read' : Reader} {start stop : Nat} {target : Target}
  (unaltered : UnalteredReaders line read read')

include unaltered

theorem unaltered_matchCandidate (candidate : Candidate) :
    Unaltered Stopped AtLimit id (matchCandidate read line start stop candidate)
      (matchCandidate read' line start stop candidate.uncancelled) := by
  have run : Unaltered Stopped AtLimit id
      (Match.run candidate.pattern line start stop fun p low high => read line low high (.ofPlaceholder p))
      (Match.run candidate.pattern line start stop fun p low high => read' line low high (.ofPlaceholder p)) :=
    Match.related_run composes_unaltered fun p low high _ _ _ => unaltered low high (.ofPlaceholder p)
  unfold matchCandidate
  exact run.bracket (fun _ => rfl) fun _ => rfl

theorem unaltered_tryCandidate {candidate : Candidate}
    (unaware : ∀ node, (candidate.definition.decide node).IsUnaware) :
    Unaltered Stopped AtLimit id (tryCandidate r read line start stop candidate)
      (tryCandidate r.uncancelled read' line start stop candidate.uncancelled) := by
  have matched : Unaltered Stopped AtLimit id (matchCandidate read line start stop candidate)
      (matchCandidate read' line start stop candidate.uncancelled) :=
    unaltered_matchCandidate unaltered candidate
  have neutral : Context.Neutral id := fun _ => rfl
  refine matched.finish (settle r read line start stop candidate)
    (settle r.uncancelled read' line start stop candidate.uncancelled) neutral (fun _ => rfl) (fun _ => rfl)
    (fun c e c' stops => ⟨e, c'.rollback c.checkpoint, rfl, stops⟩) fun c result c' may => ?_
  cases result with
  | error cause => exact ⟨rfl, fun e same => may e (by cases same; rfl)⟩
  | ok result =>
    cases result with
    | error failure => exact ⟨rfl, nofun⟩
    | ok found =>
      have decided := carryOut_uncancelled r read read'
        (unaware (nodeOf candidate found (c'.span (stretchOf line start stop)))) c'
      show conclude c.uncancelled (carryOut r.uncancelled read'
          (candidate.definition.decide
            (nodeOf candidate found (c'.span (stretchOf line start stop)))).uncancelled c'.uncancelled) =
        ((conclude c _).1.map id, (conclude c _).2.uncancelled) ∧ ∀ e, (conclude c _).1 = .error e → _
      rw [decided]
      cases carryOut r read
          (candidate.definition.decide (nodeOf candidate found (c'.span (stretchOf line start stop)))) c' with
      | mk verdict c₁ => cases verdict <;> exact ⟨rfl, nofun⟩

theorem unaltered_tryCandidates (admissible : Definition → Bool)
    (blind : ∀ d, admissible d.uncancelled = admissible d) {candidates : List (Candidate × Nat)}
    (unaware : ∀ x ∈ candidates, ∀ node, (x.1.definition.decide node).IsUnaware) :
    Unaltered Stopped AtLimit uncancelledAttempts (tryCandidates r read line start stop admissible candidates)
      (tryCandidates r.uncancelled read' line start stop admissible
        (candidates.map (Prod.map Candidate.uncancelled id))) := by
  induction candidates with
  | nil => exact unaltered_pure (none, [])
  | cons first rest ih =>
    obtain ⟨candidate, rank⟩ := first
    have rest := ih fun x mem => unaware x (List.mem_cons_of_mem _ mem)
    have same : admissible candidate.uncancelled.definition = admissible candidate.definition :=
      blind candidate.definition
    simp only [List.map_cons, Prod.map, tryCandidates, id, same]
    refine unaltered_checkCancelled.bind fun _ => unaltered_context fun c => ?_
    have trying : c.uncancelled.isTrying candidate.uncancelled.definition.id (stretchOf line start stop) =
        c.isTrying candidate.definition.id (stretchOf line start stop) := rfl
    rw [trying]
    split
    · exact rest
    · have counts : Context.Neutral fun c => { c with tried := c.tried + 1 } := fun _ => rfl
      refine (unaltered_change counts).bind fun _ => ?_
      refine (unaltered_tryCandidate unaltered (unaware _ List.mem_cons_self)).bind fun result => ?_
      cases result with
      | ok node => exact unaltered_pure (some node, [])
      | error miss => exact rest.bind fun tried => unaltered_pure (tried.1, ⟨candidate, rank, miss⟩ :: tried.2)

variable (unaware : ∀ category, ∀ candidate ∈ r.candidates category, ∀ node,
  (candidate.definition.decide node).IsUnaware)

include unaware

theorem unaltered_tryCategory (category : Category) (admissible : Definition → Bool)
    (blind : ∀ d, admissible d.uncancelled = admissible d) :
    Unaltered Stopped AtLimit uncancelledAttempts (tryCategory r read line start stop category admissible)
      (tryCategory r.uncancelled read' line start stop category admissible) := by
  have numbered : (r.uncancelled.candidates category).zipIdx =
      (r.candidates category).zipIdx.map (Prod.map Candidate.uncancelled id) := by
    show ((r.candidates category).map Candidate.uncancelled).zipIdx = _
    exact List.zipIdx_map ..
  unfold tryCategory
  rw [numbered]
  exact unaltered_tryCandidates unaltered admissible blind fun x mem =>
    unaware category x.1 (List.fst_mem_of_mem_zipIdx mem)

theorem unaltered_readCategories (categories : List Category) :
    Unaltered Stopped AtLimit uncancelledAttempts (readCategories r read line start stop target categories)
      (readCategories r.uncancelled read' line start stop target categories) := by
  induction categories with
  | nil => exact unaltered_pure (none, [])
  | cons category rest ih =>
    rw [readCategories, readCategories]
    refine (unaltered_tryCategory unaltered unaware category _ fun _ => rfl).bind fun tried => ?_
    obtain ⟨node?, attempts⟩ := tried
    have types : r.uncancelled.types = r.types := rfl
    simp only [uncancelledAttempts, types]
    split
    next e _ => exact unaltered_pure (some e, attempts)
    next =>
      refine ih.bind fun later => ?_
      have joined : uncancelledAttempts (later.1, attempts ++ later.2) =
          (later.1, attempts.map Attempt.uncancelled ++ later.2.map Attempt.uncancelled) :=
        congrArg (Prod.mk later.1) List.map_append
      exact joined ▸ unaltered_pure (later.1, attempts ++ later.2)

theorem unaltered_readSyntax :
    Unaltered Stopped AtLimit id (readSyntax r read line start stop target)
      (readSyntax r.uncancelled read' line start stop target) := by
  unfold readSyntax
  refine (unaltered_readCategories unaltered unaware _).bind fun tried => ?_
  obtain ⟨e?, attempts⟩ := tried
  cases e? with
  | some e => exact composes_unaltered.pure _
  | none =>
    have same : (attempts.map Attempt.uncancelled).findSome? Attempt.refusal? =
        attempts.findSome? Attempt.refusal? := by
      rw [List.findSome?_map]
      rfl
    simp only [uncancelledAttempts, same]
    split <;> exact composes_unaltered.pure _

end Forms

section Levels

variable {r : Registry} {line : Line} {start stop : Nat} {target : Target}

theorem unaltered_readLevel {forms forms' : Option Reader}
    (nested : ∀ start stop, Unaltered Stopped AtLimit id (readNested forms line start stop target)
      (readNested forms' line start stop target)) :
    Unaltered Stopped AtLimit id (readLevel forms line start stop target)
      (readLevel forms' line start stop target) := by
  unfold readLevel
  refine unaltered_context fun c => ?_
  have remembered : c.uncancelled.rejections = c.rejections := rfl
  have tried (stretch : Stretch) : c.uncancelled.isStretchTried stretch = c.isStretchTried stretch := rfl
  simp only [remembered, tried]
  split
  · exact composes_unaltered.pure _
  · refine (nested _ _).bind fun reading => ?_
    cases reading with
    | found e => exact composes_unaltered.pure _
    | rejected reason =>
      simp only [id]
      split
      · refine Unaltered.bind (unaltered_change ?_) fun _ => composes_unaltered.pure _
        exact fun _ => rfl
      · exact composes_unaltered.pure _

variable (unaware : ∀ category, ∀ candidate ∈ r.candidates category, ∀ node,
  (candidate.definition.decide node).IsUnaware)

include unaware

theorem unaltered_readForms {read read' : Reader} (unaltered : UnalteredReaders line read read') :
    Unaltered Stopped AtLimit id (readForms r read line start stop target)
      (readForms r.uncancelled read' line start stop target) := by
  have forms : unalteredRelation AtLimit _ (readForms r read line start stop target)
      (readForms r.uncancelled read' line start stop target) := by
    refine related_forms composes_unaltered (fun part target _ => unaltered part.1 part.2 target)
      (fun x y h => h.orUndone) ?_ rfl rfl (fun _ => unaltered _ _ _)
      (unaltered_readSyntax unaltered unaware)
    exact unaltered_context fun c => composes_unaltered.pure _
  exact forms

/-- **Every expression is read unaltered**, or reading it is cancelled. -/
theorem unaltered_reader (levels : Nat) :
    UnalteredReaders line (r.reader levels) (r.uncancelled.reader levels) := by
  induction levels with
  | zero =>
    intro start stop target
    exact unaltered_readLevel fun start stop => unaltered_checkCancelled.bind fun _ =>
      unaltered_context fun c => unaltered_throw ⟨c.maxDepth, rfl⟩
  | succ levels ih =>
    intro start stop target
    exact unaltered_readLevel fun start stop => unaltered_checkCancelled.bind fun _ =>
      (unaltered_readForms unaware ih).bracket (fun _ => rfl) fun _ => rfl

theorem unaltered_matchLine (levels : Nat) (category : Category) :
    Unaltered Stopped AtLimit uncancelledAttempts (matchLine r (r.reader levels) category line)
      (matchLine r.uncancelled (r.uncancelled.reader levels) category line) := by
  unfold matchLine
  dsimp only
  split
  · exact unaltered_tryCategory (unaltered_reader unaware levels) unaware category _ fun _ => rfl
  · exact unaltered_pure (none, [])

end Levels

section Results

variable {r : Registry}

theorem neutral_warnUnset (r : Registry) (reads : List (Span × String)) :
    Context.Neutral (warnUnset r reads) := by
  unfold warnUnset
  split
  · refine Context.Neutral.foldl (fun read c => ?_) reads
    have declared : c.uncancelled.isDeclared read.2 = c.isDeclared read.2 := rfl
    simp only [declared]
    split <;> rfl
  · exact fun _ => rfl

/-- The errors of a line or a text that was cancelled. -/
def StoppedText (fault : Fault) : Prop :=
  Stopped fault.cause

/-- The errors of a line or a text that was not cancelled. -/
def UnstoppedText (fault : Fault) : Prop :=
  ¬ Stopped fault.cause

theorem unstopped_of_atLimit {cause : Cause} (h : AtLimit cause) : ¬ Stopped cause := by
  obtain ⟨limit, rfl⟩ := h
  exact nofun

/-- What a text is once it was read as an expression. -/
def textResult (r : Registry) (text : String) (before : Context) (ended : Except Cause Reading × Context) :
    Except Fault Expr × Context :=
  let c := { ended.2 with rejections := before.rejections }
  match ended.1 with
  | .ok (.found e) => (.ok e, warnUnset r e.localReads c)
  | .ok (.rejected reason) =>
    let cause := Cause.noMatch Category.expression.name (trimString text) (some (reason.message r.types.table))
    (.error { cause, place := some c.place }, c)
  | .error cause => (.error { cause, place := some c.place }, c)

theorem lineResult_uncancelled (r : Registry) (category : Category) (text : String)
    (result : Except Cause (Option Node × List Attempt)) (c : Context) :
    lineResult r.uncancelled category text (result.map uncancelledAttempts) c.uncancelled =
      ((lineResult r category text result c).1, (lineResult r category text result c).2.uncancelled) := by
  rcases result with cause | ⟨_ | node, attempts⟩
  · rfl
  · have same (stop : Nat) : (attempts.map Attempt.uncancelled).map
        (Attempt.nearMiss r.types.table (Line.ofString text) stop) =
          attempts.map (Attempt.nearMiss r.types.table (Line.ofString text) stop) := by
      rw [List.map_map]
      rfl
    have types : r.uncancelled.types = r.types := rfl
    simp only [Except.map, uncancelledAttempts, lineResult, types, same]
    rfl
  · exact congrArg (Prod.mk _) (neutral_warnUnset r node.localReads c)

variable (unaware : ∀ category, ∀ candidate ∈ r.candidates category, ∀ node,
  (candidate.definition.decide node).IsUnaware)

include unaware

/-- **A line is parsed unaltered**, or parsing it is cancelled. -/
theorem unaltered_parseLine (category : Category) (text : String) :
    Unaltered StoppedText UnstoppedText id (r.parseLine category text) (r.uncancelled.parseLine category text) := by
  intro c
  have matched : Unaltered Stopped AtLimit uncancelledAttempts
      (matchLine r (r.reader c.remainingDepth) category (Line.ofString text))
      (matchLine r.uncancelled (r.uncancelled.reader c.remainingDepth) category (Line.ofString text)) :=
    unaltered_matchLine unaware c.remainingDepth category
  have fresh : Context.Neutral fun c => { c with nearMisses := [], rejections := {} } := fun _ => rfl
  have line : Unaltered StoppedText UnstoppedText id (parseLineBy r (r.reader c.remainingDepth) category text)
      (parseLineBy r.uncancelled (r.uncancelled.reader c.remainingDepth) category text) := by
    refine matched.finish
      (fun c ended => lineResult r category text ended.1 { ended.2 with rejections := c.rejections })
      (fun c ended => lineResult r.uncancelled category text ended.1 { ended.2 with rejections := c.rejections })
      fresh (fun _ => rfl) (fun _ => rfl) (fun c e c' stops => ⟨_, _, rfl, stops⟩) fun c result c' may => ?_
    have same := lineResult_uncancelled r category text result { c' with rejections := c.rejections }
    rcases result with cause | ⟨_ | node, attempts⟩
    · refine ⟨same, fun fault failed => ?_⟩
      cases failed
      exact unstopped_of_atLimit (may cause rfl)
    · refine ⟨same, fun fault failed => ?_⟩
      cases failed
      exact fun stopped => nomatch stopped
    · exact ⟨same, nofun⟩
  exact line c

/-- **A text is parsed unaltered** as an expression, or parsing it is cancelled. -/
theorem unaltered_parseExpression (text : String) (types : List PatternType) :
    Unaltered StoppedText UnstoppedText id (r.parseExpression text types)
      (r.uncancelled.parseExpression text types) := by
  intro c
  have read : UnalteredReaders (Line.ofString text) (r.reader c.remainingDepth)
      (r.uncancelled.reader c.remainingDepth) := unaltered_reader unaware c.remainingDepth
  have fresh : Context.Neutral fun c => { c with rejections := {} } := fun _ => rfl
  have whole : Unaltered StoppedText UnstoppedText id (readText r (r.reader c.remainingDepth) text types)
      (readText r.uncancelled (r.uncancelled.reader c.remainingDepth) text types) := by
    refine (read 0 _ (.ofTypes types)).finish (textResult r text) (textResult r.uncancelled text) fresh
      (fun _ => rfl) (fun _ => rfl) (fun c e c' stops => ⟨_, _, rfl, stops⟩) fun c result c' may => ?_
    rcases result with cause | e | reason
    · refine ⟨rfl, fun fault failed => ?_⟩
      cases failed
      exact unstopped_of_atLimit (may cause rfl)
    · refine ⟨?_, nofun⟩
      exact congrArg (Prod.mk _) (neutral_warnUnset r e.localReads { c' with rejections := c.rejections })
    · refine ⟨rfl, fun fault failed => ?_⟩
      cases failed
      exact fun stopped => nomatch stopped
  exact whole c

end Results

end Parse

end Phrasebook
