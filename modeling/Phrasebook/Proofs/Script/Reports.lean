import Phrasebook.Proofs.Parse.Bounds
import Phrasebook.Proofs.Script.Verdict

/-!
# What a row reports

What is reported at a row are warnings about the blocks that end before it, and then what explains its verdict:
one error if the row was turned down, since a failed attempt leaves nothing behind, and what its decisions
report if it was accepted (`judge_ends`). Settling a verdict reports nothing (`settle_ends`).
-/

namespace Phrasebook.Script
open Text Parse

/-- A step stays in the line and reports something. -/
structure Adds (c : Context) (added : List Diagnostic) (c' : Context) : Prop where
  line : c'.line = c.line
  column : c'.column = c.column
  diagnostics : c'.diagnostics = c.diagnostics ++ added

namespace Adds

theorem refl (c : Context) : Adds c [] c := ⟨rfl, rfl, (List.append_nil _).symm⟩

theorem trans {c c' c'' : Context} {added added' : List Diagnostic} (h : Adds c added c')
    (h' : Adds c' added' c'') : Adds c (added ++ added') c'' where
  line := h'.line.trans h.line
  column := h'.column.trans h.column
  diagnostics := by rw [h'.diagnostics, h.diagnostics, List.append_assoc]

theorem report (c : Context) (d : Diagnostic) : Adds c [d] (c.report d) := ⟨rfl, rfl, rfl⟩

theorem of_reportLine {text : String} {diagnostic : Span → Diagnostic} {c c' : Context} {u : Unit}
    (h : Ends (reportLine text diagnostic) c u c') :
    ∃ stop, Adds c [diagnostic (.withinLine c.line c.column 0 stop)] c' := by
  cases h
  exact ⟨text.utf8ByteSize, report c _⟩

end Adds

section Blocks

/-- The warning about a block that never had a line. -/
def OpenBlock.warning? (b : OpenBlock) : Option Diagnostic :=
  if b.childIndent.isNone then
    b.header.map fun node =>
      .warning b.span .structural ("'" ++ node.name ++ "' has an empty block")
  else none

/-- The warnings about the blocks that a row at an indentation falls outside of. -/
def Outline.warnings (o : Outline) (indent : Nat) : List Diagnostic :=
  (o.blocks.takeWhile (OpenBlock.isOutside indent)).filterMap OpenBlock.warning?

theorem OpenBlock.adds_enter (b : OpenBlock) (c : Context) : Adds c [] (b.enter c) := by
  unfold OpenBlock.enter
  split <;> exact ⟨rfl, rfl, (List.append_nil _).symm⟩

theorem adds_popScope (c : Context) : Adds c [] c.popScope := by
  unfold Context.popScope
  split <;> exact ⟨rfl, rfl, (List.append_nil _).symm⟩

theorem adds_leaveBlock (c : Context) : Adds c [] c.leaveBlock :=
  (show Adds c [] { c with enclosing := c.enclosing.dropLast } from
    ⟨rfl, rfl, (List.append_nil _).symm⟩).trans (adds_popScope _)

theorem OpenBlock.adds_leave (b : OpenBlock) (c : Context) :
    Adds c b.warning?.toList (b.leave c) := by
  unfold OpenBlock.leave OpenBlock.warning?
  cases b.header with
  | none =>
    have nothing : (if b.childIndent.isNone then (none : Option Diagnostic) else none) = none := by
      split <;> rfl
    simp only [Option.map_none, nothing]
    exact adds_popScope c
  | some node =>
    simp only [Option.map_some]
    split
    · exact (adds_leaveBlock c).trans (.report _ _)
    · exact adds_leaveBlock c

/-- Leaving blocks reports those that are empty. -/
theorem Outline.adds_leave (o : Outline) (indent : Nat) (c : Context) :
    Adds c (o.warnings indent) (o.leave indent c) := by
  unfold Outline.leave Outline.warnings
  generalize o.blocks.takeWhile (OpenBlock.isOutside indent) = blocks
  induction blocks generalizing c with
  | nil => exact .refl c
  | cons b rest ih =>
    have first := b.adds_leave c
    have others := ih (b.leave c)
    rw [List.foldl_cons, List.filterMap_cons]
    cases same : b.warning? with
    | none =>
      rw [same] at first
      exact first.trans others
    | some d =>
      rw [same] at first
      exact first.trans others

end Blocks

section Rows

variable {r : Registry} {b : Bounds}

/-- What is reported when a text is understood, and when it is not. -/
def Understands (b : Bounds) : Option Node → List Diagnostic → Prop
  | some node, added => b.AllowsNode node ∧ ∀ d ∈ added, b.Reports d
  | none, added => ∃ span fault, span.line = b.line ∧ added = [.ofFault span fault]

/-- A step that tries to understand a text reports something only if it does. -/
def Tries (b : Bounds) (x : Parsing (Except Fault Node)) : Prop :=
  ∀ c result c', c.line = b.line → Ends x c result c' → ∃ added, Adds c added c' ∧
    (∀ node, result = .ok node → Understands b (some node) added) ∧
    ∀ fault, result = .error fault → added = []

theorem tries_error (fault : Fault) : Tries b (pure (.error fault)) := by
  intro c result c' _ ends
  cases ends
  exact ⟨[], .refl c, nofun, fun _ _ => rfl⟩

/-- An attempt on a line comes to what the line is parsed as. -/
theorem ends_attempt {category : Category} {text : String} {c c' : Context} {result : Except Fault Node}
    (ends : Ends (attempt r category text) c result c') : r.parseLine category text c = (result, c') := by
  unfold Ends attempt Parsing.of at ends
  cases parsed : r.parseLine category text c with
  | mk outcome after =>
    simp only [parsed] at ends
    cases outcome with
    | ok node =>
      cases ends
      rfl
    | error fault =>
      dsimp only at ends
      split at ends
      · cases ends
      · cases ends
        rfl

/-- A text that is not understood at first is tried in another way, and if that fails as well, the first
fault is reported. -/
def understand (first : Parsing (Except Fault Node)) (second : Fault → Parsing (Except Fault Node))
    (text : String) : Parsing (Option Node) := do
  match ← first with
  | .ok node => pure (some node)
  | .error fault =>
    match ← second fault with
    | .ok node => pure (some node)
    | .error _ => do
      reportLine text fun span => .ofFault span fault
      pure none

theorem readHeader_eq (r : Registry) (atMargin : Bool) (text : String) :
    readHeader r atMargin text =
      understand (attempt r (if atMargin then .event else .sectionHead) text)
        (fun fault => if atMargin && r.config.allowTopLevel then attempt r .sectionHead text
          else pure (.error fault)) text := by
  unfold readHeader understand
  congr 1
  funext result
  cases result with
  | ok node => rfl
  | error fault =>
    dsimp only
    split <;> rfl

theorem readStatement_eq (r : Registry) (text : String) :
    readStatement r text =
      understand (attempt r .effect text) (fun fault => match fault.cause with
        | .recursionLimit _ => pure (.error fault)
        | _ => attempt r .condition text) text := by
  unfold readStatement understand
  congr 1
  funext result
  cases result with
  | ok node => rfl
  | error fault =>
    dsimp only
    generalize fault.cause = cause
    cases cause <;> rfl

theorem understand_ends {first : Parsing (Except Fault Node)}
    {second : Fault → Parsing (Except Fault Node)} {text : String} (tries : Tries b first)
    (others : ∀ fault, Tries b (second fault)) {c c' : Context} {node? : Option Node}
    (here : c.line = b.line) (ends : Ends (understand first second text) c node? c') :
    ∃ added, Adds c added c' ∧ Understands b node? added := by
  obtain ⟨result, c₁, tried, ends⟩ := ends.of_bind
  obtain ⟨added, adds, understood, nothing⟩ := tries c result c₁ here tried
  cases result with
  | ok node =>
    cases ends
    exact ⟨added, adds, understood node rfl⟩
  | error fault =>
    have none := nothing fault rfl
    rw [none] at adds
    obtain ⟨result, c₂, tried, ends⟩ := ends.of_bind
    obtain ⟨added, adds', understood, nothing⟩ :=
      others fault c₁ result c₂ (adds.line.trans here) tried
    cases result with
    | ok node =>
      cases ends
      exact ⟨added, adds.trans adds', understood node rfl⟩
    | error other =>
      have none := nothing other rfl
      rw [none] at adds'
      obtain ⟨u, c₃, reported, ends⟩ := ends.of_bind
      obtain ⟨stop, adds''⟩ := Adds.of_reportLine reported
      cases ends
      have both := adds.trans adds'
      exact ⟨_, both.trans adds'', _, fault, both.line.trans here, rfl⟩

/-- An attempt that fails reports nothing. -/
theorem adds_attempt_error {category : Category} {text : String} {fault : Fault} {c c' : Context}
    (parsed : r.parseLine category text c = (.error fault, c')) : Adds c [] c' := by
  obtain ⟨left, -⟩ := parseLine_leaves_nil parsed
  have line : c'.setting.line = c.setting.line := congrArg Context.line left.setting
  have column : c'.setting.column = c.setting.column := congrArg Context.column left.setting
  have nothing : c'.diagnostics = c.diagnostics := left.diagnostics
  exact ⟨line, column, nothing.trans (List.append_nil _).symm⟩

variable (permits : ∀ category, ∀ x ∈ r.candidates category, b.Permits x.definition.decide)

include permits

theorem tries_attempt (category : Category) (text : String) :
    Tries b (attempt r category text) := by
  intro c result c' here ends
  have parsed := ends_attempt ends
  cases result with
  | ok node =>
    obtain ⟨added, diagnostics, reports, allowed, setting⟩ := parseLine_within permits here parsed
    have line : c'.setting.line = c.setting.line := by rw [setting]
    have column : c'.setting.column = c.setting.column := by rw [setting]
    refine ⟨added, ⟨line, column, diagnostics⟩, fun node' same => ?_, nofun⟩
    cases same
    exact ⟨allowed, reports⟩
  | error fault => exact ⟨[], adds_attempt_error parsed, nofun, fun _ _ => rfl⟩

theorem readHeader_ends {atMargin : Bool} {text : String} {c c' : Context} {node? : Option Node}
    (here : c.line = b.line) (ends : Ends (readHeader r atMargin text) c node? c') :
    ∃ added, Adds c added c' ∧ Understands b node? added := by
  have second (fault : Fault) : Tries b (if atMargin && r.config.allowTopLevel then
      attempt r .sectionHead text else pure (.error fault)) := by
    split
    · exact tries_attempt permits _ _
    · exact tries_error fault
  rw [readHeader_eq] at ends
  exact understand_ends (tries_attempt permits _ _) second here ends

theorem readStatement_ends {text : String} {c c' : Context} {node? : Option Node}
    (here : c.line = b.line) (ends : Ends (readStatement r text) c node? c') :
    ∃ added, Adds c added c' ∧ Understands b node? added := by
  have second (fault : Fault) : Tries b (match fault.cause with
      | .recursionLimit _ => pure (.error fault)
      | _ => attempt r .condition text) := by
    split
    · exact tries_error fault
    · exact tries_attempt permits _ _
  rw [readStatement_eq] at ends
  exact understand_ends (tries_attempt permits _ _) second here ends

end Rows

/-- What explains a verdict about a row that is parsed within bounds. -/
inductive Explains (b : Bounds) (row : Row) : Verdict → List Diagnostic → Prop where
  | misplaced {expected} :
    Explains b row (.misplaced expected) [row.misplacedError expected row.start]
  | stray : Explains b row .stray [strayError row.start]
  | header {node? added} : Understands b node? added → Explains b row (.header node?) added
  | statement {node? added} : Understands b node? added → Explains b row (.statement node?) added

/-- When a verdict is given about a row in an outline. -/
inductive Judges (o : Outline) (row : Row) : Verdict → Prop where
  | misplaced {expected} : o.expected? row.indent = some expected → Judges o row (.misplaced expected)
  | stray : o.expected? row.indent = none → row.header? = none → Judges o row .stray
  | header {header node?} : o.expected? row.indent = none → row.header? = some header →
    Judges o row (.header node?)
  | statement {node?} : o.expected? row.indent = none → row.header? = none →
    Judges o row (.statement node?)

section Judge

variable {r : Registry} {b : Bounds}
  (permits : ∀ category, ∀ x ∈ r.candidates category, b.Permits x.definition.decide)

include permits

/-- What a row reports whose indentation fits explains its verdict. -/
theorem judgeText_ends {o : Outline} {row : Row} {c c' : Context} {verdict : Verdict}
    (number : b.line = row.number) (line : c.line = row.number) (column : c.column = row.column)
    (ends : Ends (judgeText r o row) c verdict c') :
    (∀ o' : Outline, o'.expected? row.indent = none → Judges o' row verdict) ∧
      ∃ added, Explains b row verdict added ∧ Adds c added c' := by
  have here : c.line = b.line := line.trans number.symm
  cases judgedText_of_ends ends with
  | header isHeader read =>
    obtain ⟨added, adds, understood⟩ := readHeader_ends permits here read
    exact ⟨fun _ fits => .header fits isHeader, added, .header understood, adds⟩
  | stray isHeader _ reported =>
    obtain ⟨stop, adds⟩ := Adds.of_reportLine reported
    rw [line, column] at adds
    exact ⟨fun _ fits => .stray fits isHeader, _, .stray, adds⟩
  | statement isHeader _ read =>
    obtain ⟨added, adds, understood⟩ := readStatement_ends permits here read
    exact ⟨fun _ fits => .statement fits isHeader, added, .statement understood, adds⟩

/-- **What a row reports** are the blocks that end before it, and what explains its verdict. -/
theorem judge_ends {o : Outline} {row : Row} {c c' : Context} {verdict : Verdict}
    (number : b.line = row.number) (ends : Ends (judge r o row) c verdict c') :
    Judges o row verdict ∧ ∃ added, Explains b row verdict added ∧ c'.line = row.number ∧
      c'.column = row.column ∧ c'.diagnostics = c.diagnostics ++ (o.warnings row.indent ++ added) := by
  have left := o.adds_leave row.indent { c with line := row.number, column := row.column }
  have judged : Judges o row verdict ∧ ∃ added, Explains b row verdict added ∧
      Adds (o.leave row.indent { c with line := row.number, column := row.column }) added c' := by
    cases judgedRow_of_ends ends with
    | misplaced fits reported =>
      obtain ⟨stop, adds⟩ := Adds.of_reportLine reported
      rw [left.line, left.column] at adds
      exact ⟨.misplaced fits, _, .misplaced, adds⟩
    | text fits ends =>
      obtain ⟨judges, added, explains, adds⟩ := judgeText_ends permits number left.line left.column ends
      exact ⟨judges o fits, added, explains, adds⟩
  obtain ⟨judges, added, explains, adds⟩ := judged
  -- what explains the verdict comes after the warnings about the blocks that were left
  have all := left.trans adds
  exact ⟨judges, added, explains, all.line, all.column, all.diagnostics⟩

end Judge

/-- What follows from a verdict for the outline in which the row stands. -/
def Outline.settled (o : Outline) (row : Row) : Verdict → Outline
  | .misplaced _ | .stray | .statement none => o
  | .header node? => o.open_ { indent := row.indent, header := node?, span := row.start }
  | .statement (some node) => o.add { node, children := [] }

/-- Settling a verdict reports nothing. -/
theorem settle_ends {o o' : Outline} {row : Row} {verdict : Verdict} {c c' : Context}
    (line : c.line = row.number) (column : c.column = row.column)
    (ends : Ends (settle o row verdict) c o' c') :
    o' = o.settled row verdict ∧ Adds c [] c' := by
  cases verdict with
  | misplaced expected =>
    cases ends
    exact ⟨rfl, .refl c⟩
  | stray =>
    cases ends
    exact ⟨rfl, .refl c⟩
  | header node? =>
    cases ends
    have start : c.span ⟨0, 0⟩ = row.start := by rw [Context.span, line, column, Row.start]
    refine ⟨?_, OpenBlock.adds_enter _ c⟩
    rw [start]
    rfl
  | statement node? =>
    cases node? with
    | none =>
      cases ends
      exact ⟨rfl, .refl c⟩
    | some node =>
      cases ends
      exact ⟨rfl, .refl c⟩

end Phrasebook.Script
