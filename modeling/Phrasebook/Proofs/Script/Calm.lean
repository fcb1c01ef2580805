import Phrasebook.Proofs.Parse.Calm
import Phrasebook.Proofs.Script.Cancelled
import Phrasebook.Proofs.Script.Reports

/-!
# Scripts that nobody cancels

A line that cannot be understood is reported, and the next one is read. So a script is given up only if it is
cancelled, and where neither the outside nor a decision asks to cancel it is parsed to the end.
-/

namespace Phrasebook
open Text Parse

/-- A change that has nothing to do with requests to cancel keeps the calm. -/
theorem Context.Neutral.isCalm {change : Context → Context} (neutral : Neutral change) {c : Context}
    (calm : c.IsCalm) : (change c).IsCalm := by
  have same : c.uncancelled = c := by
    unfold IsCalm at calm
    rw [uncancelled, ← calm]
  have changed := neutral c
  rw [same] at changed
  rw [changed]
  rfl

namespace Script

variable {β γ : Type} {r : Registry}

/-- In the calm a step ends with a result, and keeps the calm. -/
def Settles (x : Parsing β) : Prop :=
  ∀ c, c.IsCalm → ∃ b c', Ends x c b c' ∧ c'.IsCalm

theorem settles_pure (b : β) : Settles (pure b : Parsing β) :=
  fun c calm => ⟨b, c, rfl, calm⟩

theorem Settles.bind {x : Parsing β} {f : β → Parsing γ} (first : Settles x) (second : ∀ b, Settles (f b)) :
    Settles (x >>= f) := by
  intro c calm
  obtain ⟨b, c', ends, calm'⟩ := first c calm
  obtain ⟨result, c'', ends', calm''⟩ := second b c' calm'
  exact ⟨result, c'', ends.bind ends', calm''⟩

theorem settles_change {change : Context → Context} (neutral : Context.Neutral change) :
    Settles (Parsing.change change) :=
  fun c calm => ⟨(), change c, rfl, neutral.isCalm calm⟩

theorem settles_reportLine (text : String) (diagnostic : Span → Diagnostic) :
    Settles (reportLine text diagnostic) :=
  settles_change (Context.neutral_report _ fun _ => rfl)

theorem settles_checkCancelled : Settles Parsing.checkCancelled :=
  fun c calm => ⟨(), c, ends_checkCancelled_calm calm, calm⟩

/-- A text is understood or reported, if every way to try it comes to something. -/
theorem settles_understand {first : Parsing (Except Fault Node)} {second : Fault → Parsing (Except Fault Node)}
    (tries : Settles first) (others : ∀ fault, Settles (second fault)) (text : String) :
    Settles (understand first second text) := by
  refine tries.bind fun result => ?_
  cases result with
  | ok node => exact settles_pure _
  | error fault =>
    refine (others fault).bind fun result => ?_
    cases result with
    | ok node => exact settles_pure _
    | error _ => exact (settles_reportLine text _).bind fun _ => settles_pure none

variable (never : ∀ category, ∀ x ∈ r.candidates category, ∀ node, (x.definition.decide node).NeverCancels)

include never

/-- In the calm an attempt on a line ends with what the line is parsed as. -/
theorem attempt_calm {c c' : Context} (calm : c.IsCalm) {category : Category} {text : String}
    {result : Except Fault Node} (parsed : r.parseLine category text c = (result, c')) :
    Ends (attempt r category text) c result c' := by
  simp only [Ends, attempt, Parsing.of, parsed]
  cases result with
  | ok node => rfl
  | error fault =>
    have other : (fault.cause == .cancelled) = false := by
      rcases (parseLine_calm never calm parsed).2 fault rfl with ⟨near, cause⟩ | ⟨limit, cause⟩ <;> rw [cause] <;> rfl
    dsimp only
    rw [other]
    rfl

theorem settles_attempt (category : Category) (text : String) : Settles (attempt r category text) := by
  intro c calm
  cases parsed : r.parseLine category text c with
  | mk result c' => exact ⟨result, c', attempt_calm never calm parsed, (parseLine_calm never calm parsed).1⟩

theorem settles_readHeader (atMargin : Bool) (text : String) : Settles (readHeader r atMargin text) := by
  rw [readHeader_eq]
  refine settles_understand (settles_attempt never _ text) (fun fault => ?_) text
  split
  · exact settles_attempt never _ text
  · exact settles_pure _

theorem settles_readStatement (text : String) : Settles (readStatement r text) := by
  rw [readStatement_eq]
  refine settles_understand (settles_attempt never _ text) (fun fault => ?_) text
  split
  · exact settles_pure _
  · exact settles_attempt never _ text

theorem settles_readText (row : Row) (o : Outline) : Settles (Script.readText r row o) := by
  unfold Script.readText
  cases row.header? with
  | some header =>
    refine (settles_readHeader never _ header).bind fun node? c calm => ?_
    exact ((settles_change (OpenBlock.neutral_enter _)).bind fun _ => settles_pure _) c calm
  | none =>
    dsimp only
    split
    · exact (settles_reportLine _ _).bind fun _ => settles_pure o
    · refine (settles_readStatement never _).bind fun node? => ?_
      cases node? <;> exact settles_pure _

theorem settles_readRow (o : Outline) (row : Row) : Settles (readRow r o row) := by
  have moves : Context.Neutral fun c =>
      o.leave row.indent { c with line := row.number, column := row.column } :=
    fun c => o.neutral_leave row.indent { c with line := row.number, column := row.column }
  unfold readRow
  refine (settles_change moves).bind fun _ => ?_
  dsimp only
  split
  · exact (settles_reportLine _ _).bind fun _ => settles_pure _
  · exact settles_readText never row _

/-- The lines of a script are read to the last. -/
theorem settles_readLines (lines : List (List Char × Nat)) (o : Outline) : Settles (readLines r o lines) := by
  induction lines generalizing o with
  | nil => exact settles_pure o
  | cons first rest ih =>
    obtain ⟨line, index⟩ := first
    unfold readLines
    refine settles_checkCancelled.bind fun _ => ?_
    cases Row.ofLine? line index with
    | none => exact ih o
    | some row => exact (settles_readRow never o row).bind ih

/-- **A script that nobody cancels is parsed to the end.** -/
theorem parseScript_calm {c : Context} (calm : c.IsCalm) (source : String) :
    ∃ s, r.parseScript source c = .ok s := by
  obtain ⟨o, c', ends, -⟩ := settles_readLines never (lines source.toList).zipIdx {} c calm
  have read : readLines r {} (lines source.toList).zipIdx c = (.ok o, c') := ends
  exact ⟨_, by rw [Registry.parseScript, read]⟩

end Script

end Phrasebook
