import Phrasebook.Proofs.Parse.Depth
import Phrasebook.Proofs.Parse.Respected
import Phrasebook.Proofs.Vocabulary

/-!
# The recursion limit only cuts off

A parse that does not run into the recursion limit does the same under any higher limit: it comes to the same
node or the same error, and notes, reports and declares the same. What is turned down before the limit is
reached would be turned down as well if there were more levels, since running into the limit is an error that
ends the whole parse, and no reason to try something else.
-/

namespace Phrasebook
open Text Parse

/-- A state with another limit. -/
def Context.withLimit (c : Context) (limit : Nat) : Context :=
  { c with maxDepth := limit }

/-- A parse ran into the recursion limit. -/
def RunsIntoLimit {β : Type} (result : Except Fault β) : Prop :=
  ∃ limit place, result = .error { cause := .recursionLimit limit, place }

instance {β : Type} : (result : Except Fault β) → Decidable (RunsIntoLimit result)
  | .error ⟨.recursionLimit limit, place⟩ => isTrue ⟨limit, place, rfl⟩
  | .ok _ | .error ⟨.patternSyntax .., _⟩ | .error ⟨.unknownType _, _⟩ | .error ⟨.duplicateType _, _⟩
  | .error ⟨.noMatch .., _⟩ | .error ⟨.ambiguous .., _⟩ | .error ⟨.notLiteral .., _⟩
  | .error ⟨.noConversion .., _⟩ | .error ⟨.cancelled, _⟩ | .error ⟨.config _, _⟩ | .error ⟨.io _, _⟩
  | .error ⟨.internal _, _⟩ => isFalse nofun

namespace Parse

variable {β γ : Type} {limit limit' : Nat}

/-- From a state with a limit a step runs into it, or comes to the same end as another step does from the state
with another limit. -/
def UpTo (limit limit' : Nat) : StepRelation Parsing := fun _ x y =>
  ∀ c, c.maxDepth = limit → (x c).2.maxDepth = limit ∧
    ((x c).1 = .error (.recursionLimit limit) ∨
      y (c.withLimit limit') = ((x c).1, (x c).2.withLimit limit'))

theorem upTo_pure (b : β) : UpTo limit limit' β (pure b) (pure b) :=
  fun _ here => ⟨here, .inr rfl⟩

theorem UpTo.bind {x y : Parsing β} {f g : β → Parsing γ} (first : UpTo limit limit' β x y)
    (second : ∀ b, UpTo limit limit' γ (f b) (g b)) : UpTo limit limit' γ (x >>= f) (y >>= g) := by
  intro c here
  obtain ⟨after, ended⟩ := first c here
  cases ran : x c with
  | mk result c' =>
    rw [ran] at after ended
    cases result with
    | error cause =>
      rw [bind_error ran]
      refine ⟨after, ended.imp (fun limited => ?_) bind_error⟩
      cases limited
      rfl
    | ok b =>
      rw [Ends.bind_apply ran]
      rcases ended with limited | same
      · cases limited
      · rw [Ends.bind_apply same]
        exact second b c' after

/-- What a step does to the state has nothing to do with the limit. -/
theorem upTo_of {f : Context → Except Cause β × Context} (keeps : ∀ c, (f c).2.maxDepth = c.maxDepth)
    (same : ∀ c, f (c.withLimit limit') = ((f c).1, (f c).2.withLimit limit')) :
    UpTo limit limit' β (.of f) (.of f) :=
  fun c here => ⟨(keeps c).trans here, .inr (same c)⟩

theorem UpTo.bracket {x y : Parsing β} (h : UpTo limit limit' β x y) {enter leave : Context → Context}
    (enters : ∀ c, (enter c).maxDepth = c.maxDepth ∧ enter (c.withLimit limit') = (enter c).withLimit limit')
    (leaves : ∀ c, (leave c).maxDepth = c.maxDepth ∧ leave (c.withLimit limit') = (leave c).withLimit limit') :
    UpTo limit limit' β (Parsing.bracket enter leave x) (Parsing.bracket enter leave y) := by
  intro c here
  obtain ⟨after, ended⟩ := h (enter c) ((enters c).1.trans here)
  refine ⟨(leaves _).1.trans after, ended.imp_right fun same => ?_⟩
  simp only [Parsing.bracket, Parsing.of, (enters c).2, same, (leaves _).2]
  rfl

theorem upTo_checkCancelled : UpTo limit limit' _ Parsing.checkCancelled Parsing.checkCancelled := by
  refine upTo_of (fun c => ?_) fun c => ?_
  · split <;> rfl
  · show (if c.cancellation.isSet then _ else _) = _
    split <;> rfl

theorem UpTo.orUndone {x y : Parsing (Option β)} (h : UpTo limit limit' _ x y) :
    UpTo limit limit' _ (orUndone x) (orUndone y) := by
  have checkpoint : UpTo limit limit' _ Parsing.checkpoint Parsing.checkpoint :=
    upTo_of (fun _ => rfl) fun _ => rfl
  refine checkpoint.bind fun before => h.bind fun b? => ?_
  cases b? with
  | none =>
    have undo : UpTo limit limit' _ (Parsing.change fun c => c.rollback before) _ :=
      upTo_of (fun _ => rfl) fun _ => rfl
    exact undo.bind fun _ => upTo_pure _
  | some b => exact upTo_pure _

theorem respected_upTo (line : Line) (limit limit' : Nat) : Respected line (UpTo limit limit') where
  pure := upTo_pure
  bind := UpTo.bind
  checkCancelled := upTo_checkCancelled
  isTrying _ _ _ := upTo_of (fun _ => rfl) fun _ => rfl
  countTrial := upTo_of (fun _ => rfl) fun _ => rfl
  lookBack _ _ _ := upTo_of (fun _ => rfl) fun _ => rfl
  remember _ _ _ _ := upTo_of (fun _ => rfl) fun _ => rfl
  spanOf _ _ := upTo_of (fun _ => rfl) fun _ => rfl
  orUndone := UpTo.orUndone
  deeper h := h.bracket (fun _ => ⟨rfl, rfl⟩) fun _ => ⟨rfl, rfl⟩

theorem beside_withLimit (limit : Nat) : Context.Beside (·.withLimit limit) :=
  fun _ _ _ _ => rfl

/-- A change has nothing to do with the limit. -/
theorem apply_withLimit (change : Edit) (c : Context) (limit : Nat) :
    (change.apply c).maxDepth = c.maxDepth ∧
      change.apply (c.withLimit limit) = (change.apply c).withLimit limit := by
  obtain ⟨_, _, _, same⟩ := change.exists_apply c
  exact ⟨by rw [same], (beside_withLimit limit).apply change c⟩

/-- A decision that has no text parsed has nothing to do with the limit. -/
theorem carryOut_withLimit (r : Registry) (read read' : Reader) {action : Action} (quiet : action.ParsesNothing)
    (c : Context) (limit : Nat) :
    (carryOut r read action c).2.maxDepth = c.maxDepth ∧
      carryOut r read' action (c.withLimit limit) =
        ((carryOut r read action c).1, (carryOut r read action c).2.withLimit limit) := by
  induction action generalizing c with
  | accept | reject => exact ⟨rfl, rfl⟩
  | look next ih => exact ih (r.view c) (quiet (r.view c)) c
  | edit change next ih =>
    obtain ⟨keeps, same⟩ := apply_withLimit change c limit
    obtain ⟨keeps', same'⟩ := ih quiet (change.apply c)
    refine ⟨keeps'.trans keeps, ?_⟩
    simp only [carryOut, same]
    exact same'
  | parse => exact quiet.elim

section Reading

variable {r : Registry} {read read' : Reader} {line : Line} {start stop : Nat}

/-- **A candidate is tried to the same end** if it is read so. -/
theorem upTo_tryCandidate {x : Candidate} (quiet : ∀ node, (x.definition.decide node).ParsesNothing)
    (parts : ∀ start stop target,
      UpTo limit limit' _ (read line start stop target) (read' line start stop target)) :
    UpTo limit limit' _ (tryCandidate r read line start stop x) (tryCandidate r read' line start stop x) := by
  have matched : UpTo limit limit' _ (matchCandidate read line start stop x)
      (matchCandidate read' line start stop x) :=
    UpTo.bracket
      (Match.related_run (respected_upTo line limit limit').toComposes fun p low high _ _ _ => parts low high _)
      (fun _ => ⟨rfl, rfl⟩) fun _ => ⟨rfl, rfl⟩
  intro c here
  obtain ⟨after, ended⟩ := matched c here
  unfold tryCandidate Parsing.of
  dsimp only
  cases step : matchCandidate read line start stop x c with
  | mk result c' =>
    rw [step] at after ended
    cases result with
    | error cause =>
      refine ⟨after, ended.imp (fun limited => ?_) fun same => ?_⟩
      · cases limited
        rfl
      · rw [same]
        rfl
    | ok result =>
      have same := ended.resolve_left nofun
      rw [same]
      cases result with
      | error failure => exact ⟨after, .inr rfl⟩
      | ok found =>
        obtain ⟨keeps, decided⟩ := carryOut_withLimit r read read'
          (quiet (nodeOf x found (c'.span (stretchOf line start stop)))) c' limit'
        have span : (c'.withLimit limit').span (stretchOf line start stop) =
          c'.span (stretchOf line start stop) := rfl
        dsimp only
        rw [span, decided]
        cases carried : carryOut r read (x.definition.decide
            (nodeOf x found (c'.span (stretchOf line start stop)))) c' with
        | mk result c'' =>
          rw [carried] at keeps
          cases result with
          | ok node => exact ⟨keeps.trans after, .inr rfl⟩
          | error reason => exact ⟨keeps.trans after, .inr rfl⟩

variable (quiet : ∀ category, ∀ x ∈ r.candidates category, ∀ node, (x.definition.decide node).ParsesNothing)

include quiet

/-- **A reader that does not run into the limit** reads what one with more levels reads. -/
theorem upTo_reader {levels levels' : Nat} (more : levels ≤ levels') (line : Line) (start stop : Nat)
    (target : Target) :
    UpTo limit limit' _ (r.reader levels line start stop target) (r.reader levels' line start stop target) := by
  have respected := respected_upTo line limit limit'
  induction levels generalizing levels' start stop target with
  | zero =>
    -- whatever is nested deeper there, here the limit is reached
    have nested (forms : Option Reader) (start stop : Nat) :
        UpTo limit limit' _ (readNested none line start stop target) (readNested forms line start stop target) := by
      refine upTo_checkCancelled.bind fun _ => ?_
      intro c here
      refine ⟨here, .inl ?_⟩
      rw [← here]
      rfl
    cases levels' <;> exact respected.readLevel fun start stop => nested _ start stop
  | succ levels ih =>
    obtain ⟨levels', rfl⟩ := Nat.exists_eq_add_of_le' more
    have parts := @ih (levels' + levels) (Nat.le_add_left _ _)
    refine respected.readLevel fun start stop => respected.readNested ?_
    exact respected.readForms rfl (fun _ _ => rfl)
      (fun category _ x mem => upTo_tryCandidate (quiet category x mem) parts) rfl parts

theorem upTo_matchLine {levels levels' : Nat} (more : levels ≤ levels') (category : Category) (line : Line) :
    UpTo limit limit' _ (matchLine r (r.reader levels) category line)
      (matchLine r (r.reader levels') category line) := by
  have respected := respected_upTo line limit limit'
  exact respected.matchLine category rfl fun start stop x mem =>
    upTo_tryCandidate (quiet category x mem) (upTo_reader quiet more line)

end Reading

theorem warnUnset_withLimit (r : Registry) (reads : List (Span × String)) (c : Context) (limit : Nat) :
    warnUnset r reads (c.withLimit limit) = (warnUnset r reads c).withLimit limit :=
  (beside_withLimit limit).warnUnset r reads c

end Parse

/-- A higher limit leaves more levels. -/
theorem Context.remainingDepth_withLimit {c : Context} {limit : Nat} (higher : c.maxDepth ≤ limit) :
    c.remainingDepth ≤ (c.withLimit limit).remainingDepth :=
  Nat.sub_le_sub_right higher c.depth

/-- **The recursion limit only cuts off.** In every registry whose definitions have no text parsed, a line or an
expression that does not run into the limit is parsed to the same end under any higher limit. -/
theorem parse_withLimit {r : Registry}
    (quiet : ∀ category, ∀ x ∈ r.candidates category, ∀ node, (x.definition.decide node).ParsesNothing)
    {c : Context} {limit : Nat} (higher : c.maxDepth ≤ limit) :
    (∀ category text, ¬ RunsIntoLimit (r.parseLine category text c).1 →
      r.parseLine category text (c.withLimit limit) =
        ((r.parseLine category text c).1, (r.parseLine category text c).2.withLimit limit)) ∧
    ∀ text types, ¬ RunsIntoLimit (r.parseExpression text types c).1 →
      r.parseExpression text types (c.withLimit limit) =
        ((r.parseExpression text types c).1, (r.parseExpression text types c).2.withLimit limit) := by
  have more := Context.remainingDepth_withLimit higher
  constructor
  · intro category text within
    have matched : UpTo c.maxDepth limit _ _ _ := upTo_matchLine quiet more category (Line.ofString text)
    obtain ⟨-, ended⟩ := matched { c with nearMisses := [], rejections := {} } rfl
    simp only [Registry.parseLine, parseLineBy] at within ⊢
    generalize matchLine r (r.reader c.remainingDepth) category _ _ = ran at within ended ⊢
    obtain ⟨result, after⟩ := ran
    rcases ended with rfl | same
    · exact absurd ⟨_, _, rfl⟩ within
    · have started : ({ c.withLimit limit with nearMisses := [], rejections := {} } : Context) =
        Context.withLimit { c with nearMisses := [], rejections := {} } limit := rfl
      rw [started, same]
      rcases result with cause | ⟨_ | node, attempts⟩
      · rfl
      · rfl
      · exact Prod.ext rfl (warnUnset_withLimit r node.localReads { after with rejections := c.rejections } limit)
  · intro text types within
    have read_ : UpTo c.maxDepth limit _ _ _ :=
      upTo_reader quiet more (Line.ofString text) 0 (Line.ofString text).size (.ofTypes types)
    obtain ⟨-, ended⟩ := read_ { c with rejections := {} } rfl
    simp only [Registry.parseExpression, readText] at within ⊢
    generalize r.reader c.remainingDepth _ _ _ _ _ = ran at within ended ⊢
    obtain ⟨result, after⟩ := ran
    rcases ended with rfl | same
    · exact absurd ⟨_, _, rfl⟩ within
    · have started : ({ c.withLimit limit with rejections := {} } : Context) =
        Context.withLimit { c with rejections := {} } limit := rfl
      rw [started, same]
      rcases result with cause | e | reason
      · rfl
      · exact Prod.ext rfl (warnUnset_withLimit r e.localReads { after with rejections := c.rejections } limit)
      · rfl

/-- What is no number is turned down if two levels are left, as it is if more are; one level is not enough. -/
theorem parse_withLimit_circular :
    let r := ((RegistryBuilder.withConfig {}).addAll circular).1.build
    let c : Context := { maxDepth := 2 }
    let number := (r.types.table.resolve "number").toList
    RunsIntoLimit (r.parseLine .effect "print x" (c.withLimit 1)).1 ∧
      ¬ RunsIntoLimit (r.parseLine .effect "print x" c).1 ∧
      ¬ RunsIntoLimit (r.parseExpression "x" number c).1 ∧
      r.parseLine .effect "print x" (c.withLimit 64) =
        ((r.parseLine .effect "print x" c).1, (r.parseLine .effect "print x" c).2.withLimit 64) ∧
      r.parseExpression "x" number (c.withLimit 64) =
        ((r.parseExpression "x" number c).1, (r.parseExpression "x" number c).2.withLimit 64) := by
  intro r c number
  have quiet : ∀ category, ∀ x ∈ r.candidates category, ∀ node, (x.definition.decide node).ParsesNothing :=
    RegistryBuilder.candidates_decides (P := fun decide => ∀ node, (decide node).ParsesNothing)
      (by simp [circular, Entry.Decides, Action.ParsesNothing])
  have higher : c.maxDepth ≤ 64 := by decide
  have cutOff : RunsIntoLimit (r.parseLine .effect "print x" (c.withLimit 1)).1 := by decide +kernel
  have line : ¬ RunsIntoLimit (r.parseLine .effect "print x" c).1 := by decide +kernel
  have expression : ¬ RunsIntoLimit (r.parseExpression "x" number c).1 := by decide +kernel
  obtain ⟨lines, expressions⟩ := parse_withLimit quiet higher
  exact ⟨cutOff, line, expression, lines .effect "print x" line, expressions "x" number expression⟩

end Phrasebook
