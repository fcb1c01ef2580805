import Phrasebook.Proofs.Parse.Alike
import Phrasebook.Proofs.Parse.Uncancelled
import Phrasebook.Proofs.Vocabulary
import Phrasebook.Script

/-!
# A cancelled parse has no result

Wherever a request to cancel comes, at the start, at a check or from a decision, a parse ends with it or comes
to what it comes to without it, unless a decision looks at requests. What each line leaves behind, and the blocks
around it, are kept apart from the requests just as within a line.
-/

namespace Phrasebook.Script
open Text Parse

/-- Nothing makes reading lines fail if nobody cancels it. -/
def Never : Cause → Prop :=
  fun _ => False

variable {r : Registry}

theorem unaltered_reportLine (text : String) (diagnostic : Span → Diagnostic) :
    Unaltered Stopped Never id (reportLine text diagnostic) (reportLine text diagnostic) := by
  unfold reportLine
  exact unaltered_change (Context.neutral_report _ fun _ => rfl)

/-- The last category that is tried gives the node, or else the first fault is reported. -/
theorem unaltered_last (text : String) (fault : Fault) (second : Except Fault Node) :
    Unaltered Stopped Never id
      (match second with
        | .ok node => pure (some node)
        | .error _ => do
          reportLine text fun span => .ofFault span fault
          pure none)
      (match second with
        | .ok node => pure (some node)
        | .error _ => do
          reportLine text fun span => .ofFault span fault
          pure none) := by
  cases second with
  | ok node => exact composes_unaltered.pure _
  | error _ => exact (unaltered_reportLine text _).bind fun _ => composes_unaltered.pure _

theorem OpenBlock.neutral_enter (b : OpenBlock) : Context.Neutral b.enter := by
  intro c
  unfold enter
  cases b.header <;> rfl

theorem OpenBlock.neutral_leave (b : OpenBlock) : Context.Neutral b.leave := by
  have leaves : Context.Neutral Context.leaveBlock := fun c =>
    Context.neutral_popScope { c with enclosing := c.enclosing.dropLast }
  intro c
  unfold leave
  cases b.header with
  | none => exact Context.neutral_popScope c
  | some node =>
    dsimp only
    split
    · rw [leaves]
      rfl
    · exact leaves c

theorem Outline.neutral_leave (o : Outline) (indent : Nat) : Context.Neutral (o.leave indent) :=
  Context.Neutral.foldl OpenBlock.neutral_leave _

/-- What an attempt makes of the end of a parse. -/
def attempted : Except Fault Node × Context → Except Cause (Except Fault Node) × Context
  | (.ok node, c) => (.ok (.ok node), c)
  | (.error fault, c) =>
    if fault.cause == .cancelled then (.error .cancelled, c) else (.ok (.error fault), c)

theorem attempt_eq (r : Registry) (category : Category) (text : String) :
    attempt r category text = .of fun c => attempted (r.parseLine category text c) := rfl

variable (unaware : ∀ category, ∀ candidate ∈ r.candidates category, ∀ node,
  (candidate.definition.decide node).IsUnaware)

include unaware

theorem unaltered_attempt (category : Category) (text : String) :
    Unaltered Stopped Never id (attempt r category text) (attempt r.uncancelled category text) := by
  have neutral : Context.Neutral id := fun _ => rfl
  rw [attempt_eq, attempt_eq]
  refine (unaltered_parseLine unaware category text).finish (fun _ => attempted) (fun _ => attempted) neutral
    (fun _ => rfl) (fun _ => rfl) (fun c fault c' stops => ?_) fun c result c' unstopped => ?_
  · have cancelled : (fault.cause == .cancelled) = true := beq_iff_eq.2 stops
    exact ⟨.cancelled, c', by simp only [attempted, cancelled, if_true], rfl⟩
  · cases result with
    | ok node => exact ⟨rfl, nofun⟩
    | error fault =>
      have other : (fault.cause == .cancelled) = false := beq_eq_false_iff_ne.2 (unstopped fault rfl)
      simp only [attempted, Except.map, other]
      exact ⟨rfl, nofun⟩

theorem unaltered_readHeader (atMargin : Bool) (text : String) :
    Unaltered Stopped Never id (readHeader r atMargin text) (readHeader r.uncancelled atMargin text) := by
  unfold readHeader
  refine (unaltered_attempt unaware _ text).bind fun result => ?_
  cases result with
  | ok node => exact composes_unaltered.pure _
  | error fault =>
    have settings : r.uncancelled.config = r.config := rfl
    simp only [id, settings]
    split
    · exact (unaltered_attempt unaware .sectionHead text).andThen (unaltered_last text fault)
    · exact unaltered_last text fault (.error fault)

theorem unaltered_readStatement (text : String) :
    Unaltered Stopped Never id (readStatement r text) (readStatement r.uncancelled text) := by
  unfold readStatement
  refine (unaltered_attempt unaware .effect text).bind fun result => ?_
  cases result with
  | ok node => exact composes_unaltered.pure _
  | error fault =>
    dsimp only [id]
    split
    · exact unaltered_last text fault (.error fault)
    · exact (unaltered_attempt unaware .condition text).andThen (unaltered_last text fault)

theorem unaltered_readText (row : Row) (o : Outline) :
    Unaltered Stopped Never id (readText r row o) (readText r.uncancelled row o) := by
  unfold readText
  cases row.header? with
  | some header =>
    refine (unaltered_readHeader unaware o.isAtMargin header).bind fun node? => unaltered_context fun c => ?_
    refine (unaltered_change (OpenBlock.neutral_enter _)).bind fun _ => composes_unaltered.pure _
  | none =>
    have settings : r.uncancelled.config = r.config := rfl
    simp only [settings]
    split
    · exact (unaltered_reportLine _ _).bind fun _ => composes_unaltered.pure _
    · refine (unaltered_readStatement unaware _).bind fun node? => ?_
      cases node? <;> exact composes_unaltered.pure _

theorem unaltered_readRow (o : Outline) (row : Row) :
    Unaltered Stopped Never id (readRow r o row) (readRow r.uncancelled o row) := by
  have moves : Context.Neutral fun c =>
      o.leave row.indent { c with line := row.number, column := row.column } :=
    fun c => o.neutral_leave row.indent { c with line := row.number, column := row.column }
  unfold readRow
  refine (unaltered_change moves).bind fun _ => ?_
  dsimp only
  split
  · exact (unaltered_reportLine _ _).bind fun _ => composes_unaltered.pure _
  · exact unaltered_readText unaware row _

/-- **The lines of a script are read unaltered**, or reading them is cancelled. -/
theorem unaltered_readLines (o : Outline) (lines : List (List Char × Nat)) :
    Unaltered Stopped Never id (readLines r o lines) (readLines r.uncancelled o lines) := by
  induction lines generalizing o with
  | nil => exact composes_unaltered.pure _
  | cons first rest ih =>
    obtain ⟨line, index⟩ := first
    refine unaltered_checkCancelled.bind fun _ => ?_
    dsimp only
    cases Row.ofLine? line index with
    | some row => exact (unaltered_readRow unaware o row).andThen ih
    | none => exact ih o

end Phrasebook.Script

namespace Phrasebook
open Text Parse

/-- Without requests to cancel a script is parsed to the end; with them it comes to the same script, or to
none. -/
theorem parseScript_uncancelled {r : Registry}
    (unaware : ∀ category, ∀ candidate ∈ r.candidates category, ∀ node,
      (candidate.definition.decide node).IsUnaware) (source : String) (c : Context) :
    ∃ script, r.uncancelled.parseScript source c.uncancelled = .ok script ∧
      (r.parseScript source c = .ok script ∨ r.parseScript source c = .error .cancelled) := by
  obtain ⟨result, c', without, never, ends⟩ :=
    Script.unaltered_readLines unaware {} (lines source.toList).zipIdx c
  unfold Registry.parseScript
  cases result with
  | error cause => exact (never cause rfl).elim
  | ok o =>
    refine ⟨{ statements := (o.close 0).statements, diagnostics := (o.leave 0 c').diagnostics }, ?_, ?_⟩
    · have left := o.neutral_leave 0 c'
      simp only [without, Except.map, id, left]
      rfl
    · rcases ends with ends | ⟨cause, c'', ends, rfl⟩
      · exact .inl (by simp only [ends])
      · exact .inr (by simp only [ends])

/-- **A cancelled parse has no result.** In every registry whose definitions have no text parsed, a script with a
line ends as cancelled if it was cancelled before; and if the definitions do not look at requests either, one that
comes at any check or from any decision makes a script, a line or an expression end as cancelled, or come to what it
comes to if nobody asks. -/
theorem parse_cancelled_or_unaltered {r : Registry}
    (quiet : ∀ category, ∀ candidate ∈ r.candidates category, ∀ node,
      (candidate.definition.decide node).ParsesNothing) (c : Context) :
    (∀ source, c.cancellation.isSet = true → lines source.toList ≠ [] →
      r.parseScript source c = .error .cancelled) ∧
    (r.IgnoresRequests →
      (∀ source, ∃ script, r.uncancelled.parseScript source c.uncancelled = .ok script ∧
        (r.parseScript source c = .ok script ∨ r.parseScript source c = .error .cancelled)) ∧
      (∀ category text, ∃ result c',
        r.uncancelled.parseLine category text c.uncancelled = (result, c'.uncancelled) ∧
        (∀ fault, result = .error fault → fault.cause ≠ .cancelled) ∧
        (r.parseLine category text c = (result, c') ∨
          ∃ fault c'', r.parseLine category text c = (.error fault, c'') ∧ fault.cause = .cancelled)) ∧
      ∀ text types, ∃ result c',
        r.uncancelled.parseExpression text types c.uncancelled = (result, c'.uncancelled) ∧
        (∀ fault, result = .error fault → fault.cause ≠ .cancelled) ∧
        (r.parseExpression text types c = (result, c') ∨
          ∃ fault c'', r.parseExpression text types c = (.error fault, c'') ∧ fault.cause = .cancelled)) := by
  refine ⟨fun source set some => ?_, fun ignores => ?_⟩
  · unfold Registry.parseScript
    cases all : lines source.toList with
    | nil => exact (some all).elim
    | cons line rest =>
      have stops : Script.readLines r {} ((line :: rest).zipIdx) c = (.error .cancelled, c) :=
        cancelled_bind set _
      rw [stops]
  have unaware : ∀ category, ∀ candidate ∈ r.candidates category, ∀ node,
      (candidate.definition.decide node).IsUnaware :=
    fun category x mem node => ⟨quiet category x mem node, ignores category x mem node⟩
  refine ⟨fun source => parseScript_uncancelled unaware source c, fun category text => ?_, fun text types => ?_⟩
  · obtain ⟨result, c', without, may, ends⟩ := unaltered_parseLine unaware category text c
    have same : result.map id = result := by cases result <;> rfl
    rw [same] at without
    exact ⟨result, c', without, may, ends⟩
  · obtain ⟨result, c', without, may, ends⟩ := unaltered_parseExpression unaware text types c
    have same : result.map id = result := by cases result <;> rfl
    rw [same] at without
    exact ⟨result, c', without, may, ends⟩

/-- A vocabulary with an effect that asks to cancel. -/
def stopping : List Entry :=
  [.definition { category := .effect, patterns := ["stop"], decide := fun node => .edit .cancel (.accept node) }]

/-- The second of two lines is not read any more after the first has asked to cancel. -/
theorem parse_cancelled_or_unaltered_stopping :
    let r := ((RegistryBuilder.withConfig {}).addAll stopping).1.build
    (∀ category, ∀ candidate ∈ r.candidates category, ∀ node,
      (candidate.definition.decide node).ParsesNothing) ∧ r.IgnoresRequests ∧
    ∃ script, r.uncancelled.parseScript "stop\nstop" {} = .ok script ∧ script.statements.length = 2 ∧
      r.parseScript "stop\nstop" {} = .error .cancelled := by
  intro r
  have quiet : ∀ category, ∀ candidate ∈ r.candidates category, ∀ node,
      (candidate.definition.decide node).ParsesNothing :=
    RegistryBuilder.candidates_decides (P := fun decide => ∀ node, (decide node).ParsesNothing)
      (by simp [stopping, Entry.Decides, Action.ParsesNothing])
  have ignores : r.IgnoresRequests :=
    RegistryBuilder.candidates_decides (P := fun decide => ∀ node, (decide node).IgnoresRequests)
      (by simp [stopping, Entry.Decides, Action.IgnoresRequests])
  have two : (r.uncancelled.parseScript "stop\nstop" {}).toOption.map (·.statements.length) = some 2 := by
    decide +kernel
  have none : (r.parseScript "stop\nstop" {}).toOption.isNone = true := by decide +kernel
  obtain ⟨script, without, ends⟩ := ((parse_cancelled_or_unaltered quiet {}).2 ignores).1 "stop\nstop"
  have without : r.uncancelled.parseScript "stop\nstop" {} = .ok script := without
  refine ⟨quiet, ignores, script, without, ?_, ?_⟩
  · rw [without] at two
    exact Option.some.inj two
  · rcases ends with ends | ends
    · rw [ends] at none
      cases none
    · exact ends

/-- A vocabulary with an effect that turns its node down once the parse has been asked to stop. -/
def impatient : List Entry :=
  [.definition
    { category := .effect, patterns := ["wait"],
      decide := fun node => .look fun view => if view.cancelled then .reject "no time left" else .accept node }]

/-- **A decision that looks at requests can make a cancelled parse come to another result.** The request comes after
the line and its only candidate were checked, so no check finds it any more: the script is neither what it is without
the request, nor cancelled. -/
theorem parseScript_altered :
    let r := ((RegistryBuilder.withConfig {}).addAll impatient).1.build
    let c : Context := { cancellation := ⟨some 2⟩ }
    (∀ category, ∀ candidate ∈ r.candidates category, ∀ node,
      (candidate.definition.decide node).ParsesNothing) ∧
    ∃ script altered, r.uncancelled.parseScript "wait" c.uncancelled = .ok script ∧
      script.statements.length = 1 ∧ script.diagnostics = [] ∧
      r.parseScript "wait" c = .ok altered ∧ altered.statements.length = 0 ∧
      altered.diagnostics.map Diagnostic.isError = [true] := by
  intro r c
  have quiet : ∀ category, ∀ candidate ∈ r.candidates category, ∀ node,
      (candidate.definition.decide node).ParsesNothing := by
    refine RegistryBuilder.candidates_decides (P := fun decide => ∀ node, (decide node).ParsesNothing) ?_
    simp only [impatient, Entry.Decides, List.forall_mem_singleton]
    intro node view
    dsimp only
    split <;> trivial
  let shape (s : Script) := (s.statements.length, s.diagnostics.map Diagnostic.isError)
  have undisturbed : (r.uncancelled.parseScript "wait" c.uncancelled).toOption.map shape = some (1, []) := by
    decide +kernel
  have requested : (r.parseScript "wait" c).toOption.map shape = some (0, [true]) := by decide +kernel
  obtain ⟨script, without, same⟩ := exists_of_map_toOption undisturbed
  obtain ⟨altered, ends, same'⟩ := exists_of_map_toOption requested
  obtain ⟨one, none⟩ := Prod.mk.inj same
  obtain ⟨zero, error⟩ := Prod.mk.inj same'
  exact ⟨quiet, script, altered, without, one, List.map_eq_nil_iff.1 none, ends, zero, error⟩

end Phrasebook
