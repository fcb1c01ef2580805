import Mathlib.Data.List.TakeWhile
import Phrasebook.Proofs.Parse.PairedLine
import Phrasebook.Proofs.Script.OpenBlocks
import Phrasebook.Proofs.Vocabulary

/-!
# Rejected statements

A statement that is turned down leaves nothing behind but its error, so the lines after it are read as if it
were not there. Here a script is compared with the same script in which a line is blank: up to that line the two
parses are one, and after it they go in step, since they differ only in what was reported before, and in what no
step looks at.
-/

namespace Phrasebook
open Text Parse Script

namespace Parse.Pairing

/-- Two parses of the same text that nobody cancels, before which different things were reported. -/
def beside (reported reported' : List Diagnostic) : Pairing where
  toCorrespondence := .same False
  stretches := Eq
  reported
  reported'
  asides _ _ := True
  definition_inj same := same
  stretches_unique := @stretch_eq_iff
  stretches_refl _ _ := rfl
  warnings := unset_eq
  asides_tick _ := trivial
  asides_misses _ _ := trivial

/-- The states of two parses correspond between two lines, where it does not matter which line was the last. -/
def Between (p : Pairing) (c d : Context) : Prop :=
  ∀ line column, p.States { c with line, column } { d with line, column }

theorem States.between {p : Pairing} {c d : Context} (h : p.States c d) : p.Between c d := by
  intro line column
  refine ⟨?_, h.scopes, h.depth, h.maxDepth, h.cancellation, h.enclosing, h.trials, h.rejections, h.diagnostics,
    h.asides, h.calm⟩
  simp only [Context.place, h.source]

theorem Between.calm {reported reported' : List Diagnostic} {c d : Context}
    (h : (beside reported reported').Between c d) : c.cancellation = {} :=
  (h 0 0).calm.resolve_left id

variable {reported reported' : List Diagnostic} {c d : Context}

/-- A state corresponds to itself, and to one that differs in what was reported before. -/
theorem beside_states (calm : c.cancellation = {}) (nearMisses : List NearMiss) (tried : Nat)
    (diagnostics : List Diagnostic) :
    (beside diagnostics c.diagnostics).States { c with nearMisses, tried, diagnostics } c where
  place := rfl
  scopes := rfl
  depth := rfl
  maxDepth := rfl
  cancellation := rfl
  enclosing := (List.map_id _).symm
  trials := List.forall₂_same.2 fun _ _ => ⟨rfl, rfl⟩
  rejections target same := by
    cases same
    rfl
  diagnostics := ⟨[], [], (List.append_nil _).symm, (List.append_nil _).symm, .nil⟩
  asides := trivial
  calm := .inr calm

/-- After a line that did nothing but report something, a state corresponds to itself before the line. -/
theorem between_report (calm : c.cancellation = {}) (line column : Nat) (nearMisses : List NearMiss)
    (tried : Nat) (d : Diagnostic) : (beside (c.diagnostics ++ [d]) c.diagnostics).Between
      ({ c with line, column, nearMisses, tried }.report d) c :=
  fun line column => beside_states (c := { c with line, column }) calm nearMisses tried (c.diagnostics ++ [d])

/-- What was reported differs only in what was reported before. -/
theorem States.diagnostics_beside (h : (beside reported reported').States c d) :
    ∃ new, c.diagnostics = reported ++ new ∧ d.diagnostics = reported' ++ new := by
  obtain ⟨new, new', first, second, related⟩ := h.diagnostics
  obtain rfl : new = new' := List.forall₂_eq_eq_eq ▸ related
  exact ⟨new, first, second⟩

section Rows

variable {r : Registry}
  (never : ∀ category, ∀ x ∈ r.candidates category, ∀ node, (x.definition.decide node).NeverCancels)

include never

/-- A line is parsed to the same end. -/
theorem beside_parseLine (states : (beside reported reported').States c d) (category : Category)
    (text : String) : (r.parseLine category text d).1 = (r.parseLine category text c).1 ∧
      (beside reported reported').States (r.parseLine category text c).2 (r.parseLine category text d).2 :=
  parseLine_same rfl (.inr never) states category text

theorem inStep_attempt (category : Category) (text : String) :
    (beside reported reported').InStep Eq (attempt r category text) (attempt r category text) := by
  intro c d states
  have ended := beside_parseLine never states category text
  simp only [attempt, Parsing.of]
  generalize r.parseLine category text c = a at ended
  generalize r.parseLine category text d = b at ended
  obtain ⟨result, after⟩ := a
  obtain ⟨result', after'⟩ := b
  obtain ⟨rfl, states'⟩ := ended
  cases result' with
  | ok node => exact ⟨rfl, states'⟩
  | error fault =>
    dsimp only
    split <;> exact ⟨rfl, states'⟩

omit never in
theorem inStep_reportLine (text : String) (diagnostic : Span → Diagnostic) :
    (beside reported reported').InStep Eq (reportLine text diagnostic) (reportLine text diagnostic) := by
  refine InStep.imp (inStep_change fun c d states => ?_) fun _ _ _ => rfl
  obtain ⟨line, column⟩ := Prod.mk.inj states.position
  refine states.report ?_
  show diagnostic (c.span _) = diagnostic (d.span _)
  rw [Context.span, Context.span, line, column]

omit never in
theorem inStep_understand {first : Parsing (Except Fault Node)}
    {second : Fault → Parsing (Except Fault Node)}
    (tries : (beside reported reported').InStep Eq first first)
    (others : ∀ fault, (beside reported reported').InStep Eq (second fault) (second fault)) (text : String) :
    (beside reported reported').InStep Eq (understand first second text) (understand first second text) := by
  refine tries.bind ?_
  rintro result _ rfl
  cases result with
  | ok node => exact inStep_pure rfl
  | error fault =>
    refine (others fault).bind ?_
    rintro result _ rfl
    cases result with
    | ok node => exact inStep_pure rfl
    | error other => exact (inStep_reportLine text _).bind fun _ _ _ => inStep_pure rfl

theorem inStep_readHeader (atMargin : Bool) (text : String) :
    (beside reported reported').InStep Eq (readHeader r atMargin text) (readHeader r atMargin text) := by
  rw [readHeader_eq]
  refine inStep_understand (inStep_attempt never _ _) (fun fault => ?_) text
  split
  · exact inStep_attempt never _ _
  · exact inStep_pure rfl

theorem inStep_readStatement (text : String) :
    (beside reported reported').InStep Eq (readStatement r text) (readStatement r text) := by
  rw [readStatement_eq]
  refine inStep_understand (inStep_attempt never _ _) (fun fault => ?_) text
  split
  · exact inStep_pure rfl
  · exact inStep_attempt never _ _

omit never in
theorem inStep_enter (b : OpenBlock) :
    (beside reported reported').InStep (fun _ _ => True) (Parsing.change b.enter) (Parsing.change b.enter) := by
  refine inStep_change fun c d states => ?_
  unfold OpenBlock.enter
  cases b.header with
  | none => exact states.pushScope
  | some node => exact states.enterBlock node.definition

theorem inStep_readText (row : Row) (o : Outline) :
    (beside reported reported').InStep Eq (Script.readText r row o) (Script.readText r row o) := by
  unfold Script.readText
  cases row.header? with
  | some header =>
    refine (inStep_readHeader never _ _).bind ?_
    rintro node? _ rfl
    refine InStep.context fun c d states => ?_
    obtain ⟨line, column⟩ := Prod.mk.inj states.position
    have span : d.span ⟨0, 0⟩ = c.span ⟨0, 0⟩ := by rw [Context.span, Context.span, line, column]
    rw [span]
    exact (inStep_enter _).bind fun _ _ _ => inStep_pure rfl
  | none =>
    dsimp only
    split
    · exact (inStep_reportLine _ _).bind fun _ _ _ => inStep_pure rfl
    · refine (inStep_readStatement never _).bind ?_
      rintro node? _ rfl
      cases node? <;> exact inStep_pure rfl

omit never in
theorem States.leaveOpen (states : (beside reported reported').States c d) (b : OpenBlock) :
    (beside reported reported').States (b.leave c) (b.leave d) := by
  unfold OpenBlock.leave
  cases b.header with
  | none => exact states.popScope
  | some node =>
    dsimp only
    split
    · exact states.leaveBlock.report rfl
    · exact states.leaveBlock

omit never in
/-- Blocks are left in step. -/
theorem States.leaveBlocks (states : (beside reported reported').States c d) (o : Outline) (indent : Nat) :
    (beside reported reported').States (o.leave indent c) (o.leave indent d) := by
  unfold Outline.leave
  induction o.blocks.takeWhile (OpenBlock.isOutside indent) generalizing c d with
  | nil => exact states
  | cons b rest ih => exact ih (states.leaveOpen b)

omit never in
theorem change_bind {β : Type} (f : Context → Context) (next : Unit → Parsing β) (c : Context) :
    (Parsing.change f >>= next) c = next () (f c) := rfl

/-- **A row is read in step**, whichever line was the last. -/
theorem between_readRow (o : Outline) (row : Row) :
    Linked (beside reported reported').Between Eq (readRow r o row) (readRow r o row) := by
  intro c d between
  have states := (between row.number row.column).leaveBlocks o row.indent
  refine And.imp_right States.between ?_
  simp only [readRow, change_bind]
  obtain ⟨o', expected?⟩ := (o.close row.indent).indentLine row.indent
  cases expected? with
  | some expected => exact (inStep_reportLine _ _).bind (fun _ _ _ => inStep_pure rfl) _ _ states
  | none => exact inStep_readText never row o' _ _ states

/-- **Lines are read in step.** -/
theorem between_readLines (lines : List (List Char × Nat)) (o : Outline) :
    Linked (beside reported reported').Between Eq (readLines r o lines) (readLines r o lines) := by
  induction lines generalizing o with
  | nil => exact linked_pure rfl
  | cons first rest ih =>
    obtain ⟨line, index⟩ := first
    have checked : Linked (beside reported reported').Between (fun _ _ => True) Parsing.checkCancelled
        Parsing.checkCancelled := by
      intro c d between
      have calm : c.cancellation = {} := between.calm
      have calm' : d.cancellation = {} := (between 0 0).cancellation.trans calm
      rw [ends_checkCancelled_calm calm, ends_checkCancelled_calm calm']
      exact ⟨trivial, between⟩
    rw [readLines]
    refine checked.bind fun _ _ _ => ?_
    cases Row.ofLine? line index with
    | none => exact ih o
    | some row =>
      refine (between_readRow never o row).bind ?_
      rintro o₁ _ rfl
      exact ih o₁

/-- Where nobody cancels, it stays so. -/
theorem calm_readLines {lines : List (List Char × Nat)} {o o' : Outline} (calm : c.cancellation = {})
    (reads : Ends (readLines r o lines) c o' d) : d.cancellation = {} := by
  have between := (beside_states calm c.nearMisses c.tried c.diagnostics).between
  have after := (between_readLines never lines o _ _ between).2
  unfold Ends at reads
  simp only [reads] at after
  exact after.calm

end Rows

end Parse.Pairing

namespace Script

section Rejected

variable {r : Registry} {c c' : Context}

/-- A step that does not understand a text leaves nothing behind but near misses and how many candidates were
tried. -/
def LeavesNothing (x : Parsing (Except Fault Node)) : Prop :=
  ∀ c fault c', c.cancellation = {} → Ends x c (.error fault) c' →
    ∃ nearMisses tried, c' = { c with nearMisses, tried }

theorem leavesNothing_error (fault : Fault) : LeavesNothing (pure (.error fault)) := by
  intro c fault c' _ ends
  cases ends
  exact ⟨c.nearMisses, c.tried, rfl⟩

/-- **A text that is not understood** is reported, and nothing else is left behind. -/
theorem understand_none {first : Parsing (Except Fault Node)}
    {second : Fault → Parsing (Except Fault Node)} {text : String} (leaves : LeavesNothing first)
    (leaves' : ∀ fault, LeavesNothing (second fault)) (calm : c.cancellation = {})
    (ends : Ends (understand first second text) c none c') :
    ∃ fault nearMisses tried,
      c' = { c with nearMisses, tried }.report (.ofFault (c.span ⟨0, text.utf8ByteSize⟩) fault) := by
  obtain ⟨result, c₁, tried, ends⟩ := ends.of_bind
  cases result with
  | ok node => cases ends
  | error fault =>
    obtain ⟨_, _, rfl⟩ := leaves c fault c₁ calm tried
    obtain ⟨result, c₂, tried, ends⟩ := ends.of_bind
    cases result with
    | ok node => cases ends
    | error other =>
      obtain ⟨nearMisses, count, rfl⟩ := leaves' fault _ other c₂ (by exact calm) tried
      obtain ⟨_, c₃, reported, ends⟩ := ends.of_bind
      cases reported
      cases ends
      exact ⟨fault, nearMisses, count, rfl⟩

section Never

variable (never : ∀ category, ∀ x ∈ r.candidates category, ∀ node, (x.definition.decide node).NeverCancels)

include never

theorem leavesNothing_attempt (category : Category) (text : String) :
    LeavesNothing (attempt r category text) := by
  intro c fault c' calm ends
  have states := (Pairing.beside_parseLine never
    (Pairing.beside_states calm c.nearMisses c.tried c.diagnostics) category text).2
  have parsed := ends_attempt ends
  rw [parsed] at states
  obtain ⟨left, rejections⟩ := parseLine_leaves_nil parsed
  exact ⟨_, _, left.eq_of_nil rejections ((states.calm.resolve_left id).trans calm.symm)⟩

theorem readStatement_none {text : String} (calm : c.cancellation = {})
    (ends : Ends (readStatement r text) c none c') :
    ∃ fault nearMisses tried,
      c' = { c with nearMisses, tried }.report (.ofFault (c.span ⟨0, text.utf8ByteSize⟩) fault) := by
  rw [readStatement_eq] at ends
  refine understand_none (leavesNothing_attempt never _ _) (fun fault => ?_) calm ends
  split
  · exact leavesNothing_error fault
  · exact leavesNothing_attempt never _ _

/-- A statement that is turned down, and before which no block is left, leaves nothing behind but its error. -/
theorem judge_rejected {o : Outline} {row : Row} (calm : c.cancellation = {})
    (still : ∀ c, o.leave row.indent c = c) (ends : Ends (judge r o row) c (.statement none) c') :
    ∃ fault nearMisses tried, c' = { c with line := row.number, column := row.column, nearMisses, tried }.report
      (.ofFault (.withinLine row.number row.column 0 (String.ofList row.text).utf8ByteSize) fault) := by
  cases judgedRow_of_ends ends with
  | text _ ends =>
    rw [still] at ends
    cases judgedText_of_ends ends with
    | statement _ _ read =>
      obtain ⟨fault, nearMisses, tried, left⟩ := readStatement_none never (by exact calm) read
      exact ⟨fault, nearMisses, tried, left⟩

end Never

end Rejected

section Blank

theorem stripFrom_sublist (n : Nesting) (line : List Char) : (stripFrom n line).Sublist line := by
  fun_induction stripFrom n line with
  | case1 => exact .slnil
  | case2 n rest covers ih => exact ih.cons_cons _
  | case3 n covers rest ih => exact (ih.cons _).cons_cons _
  | case4 => exact List.nil_sublist _
  | case5 n c rest other ih => exact ih.cons_cons _

/-- A blank line is no row. -/
theorem ofLine?_blank {blank : List Char} (blanks : isBlankText blank = true) (index : Nat) :
    Row.ofLine? blank index = none := by
  have all : ∀ c ∈ blank, isBlank c = true := List.all_eq_true.1 blanks
  have nothing : trimEnd (stripComment blank) = [] := by
    have left : ∀ c ∈ (stripComment blank).reverse, isBlank c = true := fun c mem =>
      all c ((stripFrom_sublist {} blank).subset (List.mem_reverse.1 mem))
    rw [trimEnd, List.dropWhile_eq_nil_iff.2 left]
    rfl
  unfold Row.ofLine?
  simp only [nothing]
  rfl

/-- A blank line does nothing. -/
theorem ends_readLines_blank {r : Registry} {o o' : Outline} {c c' : Context} {blank : List Char} {index : Nat}
    {rest : List (List Char × Nat)} (blanks : isBlankText blank = true) (calm : c.cancellation = {})
    (reads : Ends (readLines r o rest) c o' c') : Ends (readLines r o ((blank, index) :: rest)) c o' c' := by
  rw [readLines]
  refine (ends_checkCancelled_calm calm).bind ?_
  rw [ofLine?_blank blanks]
  exact reads

end Blank

/-- The row, if it is a statement that was turned down. -/
def Judgement.turnedDown? (j : Judgement) : Option Row :=
  match j.verdict with
  | .statement none => some j.row
  | _ => none

theorem Judgement.eq_of_turnedDown? {j : Judgement} {row : Row} (same : j.turnedDown? = some row) :
    j = { row, verdict := .statement none } := by
  obtain ⟨row', verdict⟩ := j
  unfold turnedDown? at same
  split at same
  next statement =>
    cases statement
    cases same
    rfl
  · cases same

/-- A row is a statement that is turned down, and no block ends or starts with it. -/
structure IsRejectedAlone (source : String) (judged : List Judgement) (n : Nat) (row : Row) : Prop where
  rejected : judged[n]? = some { row, verdict := .statement none }
  /-- all blocks that are open before it are around it -/
  inside (i : Nat) : IsBlock (rowsOf source) i → Clear (rowsOf source) i n → Around (rowsOf source) i n
  /-- it is not the first row of a block -/
  notFirst (i : Nat) : IsBlock (rowsOf source) i → i + 1 ≠ n

section Alone

variable {source : String} {judged : List Judgement} {n : Nat} {row : Row} {o : Outline} {blocks : List Nat}

theorem IsRejectedAlone.unmoved (alone : IsRejectedAlone source judged n row)
    (rows : judged.map Judgement.row = rowsOf source) (opened : OpenAt judged n o blocks) :
    o.moved row.indent = o ∧ ∀ c, o.leave row.indent c = c := by
  have indent : indentAt (judged.map Judgement.row) n = row.indent := by
    rw [indentAt, List.getElem?_map, alone.rejected]
    rfl
  refine opened.unmoved indent fun i isOpen => ?_
  obtain ⟨block, clear⟩ := (opened.mem i).1 isOpen
  rw [rows] at block clear ⊢
  exact ⟨alone.inside i block clear, alone.notFirst i block⟩

end Alone

end Script

namespace Registry

/-- A script is what its lines come to, after which all blocks are closed. -/
theorem parseScript_of_ends {r : Registry} {source : String} {c c' : Context} {o : Outline}
    (reads : Ends (readLines r {} (lines source.toList).zipIdx) c o c') :
    r.parseScript source c =
      .ok { statements := (o.close 0).statements, diagnostics := c'.diagnostics ++ o.warnings 0 } := by
  unfold Ends at reads
  rw [parseScript, reads, ← (o.adds_leave 0 c').diagnostics]

/-- A vocabulary in which a statement does all kinds of things before it is turned down. -/
def meddling : List Entry :=
  [.type { name := "number", plural := "numbers", literal := some fun s =>
      if s == "1" then some (.int 1) else if s == "2" then some (.int 2) else none },
    .definition { category := .event, patterns := ["start"] },
    .definition
      { category := .effect, patterns := ["print %number%"],
        decide := fun node =>
          .edits [.report (.warning node.span .other "seen"), .declare "_seen", .pushScope] <|
            match node.literal? 0 with
            | some (.int 2) => .reject "too much"
            | _ => .edit .popScope (.accept node) }]

/-- A script with a statement that is turned down. -/
def meddlingSource : String :=
  "start:\n  print 1\n  print 2 # twice\n  print 1\nprint 1"

end Registry

end Phrasebook
