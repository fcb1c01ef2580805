import Phrasebook.Proofs.Parse.SourceName
import Phrasebook.Proofs.Script.Reports

/-!
# The name of a script

What is reported tells the line and the column, but not the name of the source. So where no decision looks at the
name, a script is parsed alike under every name.
-/

namespace Phrasebook
open Text Parse

namespace Script

/-- A step tries to understand a text in the same way under every name of the source, except that the fault tells
the name. -/
def TriesAlike (x y : Parsing (Except Fault Node)) (source : Option String) : Prop :=
  ∀ c, y (c.withSource source) =
    ((x c).1.map (·.mapError (·.withSource source)), (x c).2.withSource source)

theorem ignoresSource_change {f : Context → Context}
    (same : ∀ c source, f (c.withSource source) = (f c).withSource source) : IgnoresSource (Parsing.change f) :=
  fun c source => Prod.ext rfl (same c source)

theorem ignoresSource_reportLine (text : String) (diagnostic : Span → Diagnostic) :
    IgnoresSource (reportLine text diagnostic) :=
  ignoresSource_change fun _ _ => rfl

/-- A text is understood alike if it is tried alike. -/
theorem ignoresSource_understand {first : Parsing (Except Fault Node)}
    {second : Fault → Parsing (Except Fault Node)} (tries : ∀ source, TriesAlike first first source)
    (others : ∀ fault source, TriesAlike (second fault) (second (fault.withSource source)) source) (text : String) :
    IgnoresSource (understand first second text) := by
  intro c source
  have same := tries source c
  unfold understand
  cases ran : first c with
  | mk result c₁ =>
    rw [ran] at same
    rcases result with cause | fault | node
    · rw [bind_error ran, bind_error same]
    · -- the fault tells the name, and what is reported about it does not
      have same : Ends first (c.withSource source) (.error (fault.withSource source)) (c₁.withSource source) := same
      have same' := others fault source c₁
      rw [Ends.bind_apply ran, same.bind_apply]
      dsimp only
      cases ran' : second fault c₁ with
      | mk result' c₂ =>
        rw [ran'] at same'
        rcases result' with cause | other | node
        · rw [bind_error ran', bind_error same']
        · rw [Ends.bind_apply ran', Ends.bind_apply same']
          rfl
        · rw [Ends.bind_apply ran', Ends.bind_apply same']
          rfl
    · rw [Ends.bind_apply ran, Ends.bind_apply same]
      rfl

theorem withSource_popScope (c : Context) (source : Option String) :
    (c.withSource source).popScope = c.popScope.withSource source :=
  (Context.beside_withSource source).apply .popScope c

theorem withSource_leave (b : OpenBlock) (c : Context) (source : Option String) :
    b.leave (c.withSource source) = (b.leave c).withSource source := by
  have leaves : (c.withSource source).leaveBlock = c.leaveBlock.withSource source :=
    withSource_popScope { c with enclosing := c.enclosing.dropLast } source
  unfold OpenBlock.leave
  cases b.header with
  | none => exact withSource_popScope c source
  | some node =>
    dsimp only
    rw [leaves]
    split <;> rfl

theorem withSource_leaveAll (o : Outline) (indent : Nat) (c : Context) (source : Option String) :
    o.leave indent (c.withSource source) = (o.leave indent c).withSource source := by
  unfold Outline.leave
  induction o.blocks.takeWhile (OpenBlock.isOutside indent) generalizing c with
  | nil => rfl
  | cons b rest ih =>
    rw [List.foldl_cons, List.foldl_cons, withSource_leave]
    exact ih (b.leave c)

section Rows

variable {r : Registry} (ignores : r.IgnoresSource)

include ignores

theorem triesAlike_attempt (category : Category) (text : String) (source : Option String) :
    TriesAlike (attempt r category text) (attempt r category text) source := by
  intro c
  have same := tellsSource_parseLine ignores category text c source
  simp only [attempt, Parsing.of, same]
  cases r.parseLine category text c with
  | mk result c' =>
    cases result with
    | ok node => rfl
    | error fault =>
      show (if fault.cause == .cancelled then _ else _) = _
      dsimp only
      split <;> rfl

theorem ignoresSource_readHeader (atMargin : Bool) (text : String) : IgnoresSource (readHeader r atMargin text) := by
  rw [readHeader_eq]
  refine ignoresSource_understand (triesAlike_attempt ignores _ text) (fun fault source => ?_) text
  split
  · exact triesAlike_attempt ignores _ text source
  · exact fun _ => rfl

theorem ignoresSource_readStatement (text : String) : IgnoresSource (readStatement r text) := by
  rw [readStatement_eq]
  refine ignoresSource_understand (triesAlike_attempt ignores _ text) (fun fault source => ?_) text
  have same : (fault.withSource source).cause = fault.cause := rfl
  rw [same]
  split
  · exact fun _ => rfl
  · exact triesAlike_attempt ignores _ text source

theorem ignoresSource_readText (row : Row) (o : Outline) : IgnoresSource (Script.readText r row o) := by
  unfold Script.readText
  dsimp only
  cases row.header? with
  | some header =>
    refine (ignoresSource_readHeader ignores _ _).bind fun node? => ?_
    have entered (b : OpenBlock) : IgnoresSource (Parsing.change b.enter) := by
      refine ignoresSource_change fun c source => ?_
      unfold OpenBlock.enter
      cases b.header <;> rfl
    exact fun c source => (entered _).bind (fun _ => ignoresSource_pure _) c source
  | none =>
    dsimp only
    split
    · exact (ignoresSource_reportLine _ _).bind fun _ => ignoresSource_pure _
    · refine (ignoresSource_readStatement ignores _).bind fun node? => ?_
      cases node? <;> exact ignoresSource_pure _

theorem ignoresSource_readRow (o : Outline) (row : Row) : IgnoresSource (readRow r o row) := by
  have moves : IgnoresSource (Parsing.change fun c =>
      o.leave row.indent { c with line := row.number, column := row.column }) :=
    ignoresSource_change fun c source =>
      withSource_leaveAll o row.indent { c with line := row.number, column := row.column } source
  unfold readRow
  refine moves.bind fun _ => ?_
  obtain ⟨o', expected?⟩ := (o.close row.indent).indentLine row.indent
  cases expected? with
  | some expected => exact (ignoresSource_reportLine _ _).bind fun _ => ignoresSource_pure _
  | none => exact ignoresSource_readText ignores row o'

theorem ignoresSource_readLines (lines : List (List Char × Nat)) (o : Outline) :
    IgnoresSource (readLines r o lines) := by
  induction lines generalizing o with
  | nil => exact ignoresSource_pure o
  | cons first rest ih =>
    obtain ⟨line, index⟩ := first
    unfold readLines
    refine ignoresSource_checkCancelled.bind fun _ => ?_
    cases Row.ofLine? line index with
    | none => exact ih o
    | some row => exact (ignoresSource_readRow ignores o row).bind fun o' => ih o'

/-- **A script is parsed alike under every name.** -/
theorem parseScript_withSource (text : String) (c : Context) (source : Option String) :
    r.parseScript text (c.withSource source) = r.parseScript text c := by
  have same := ignoresSource_readLines ignores (lines text.toList).zipIdx {} c source
  unfold Registry.parseScript
  rw [same]
  generalize readLines r {} (lines text.toList).zipIdx c = ran
  obtain ⟨cause | o, c'⟩ := ran
  · rfl
  · dsimp only
    rw [withSource_leaveAll]
    rfl

end Rows

end Script

end Phrasebook
