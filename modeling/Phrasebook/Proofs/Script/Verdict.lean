import Phrasebook.Proofs.Step
import Phrasebook.Script

/-!
# What becomes of the rows of a script

A row is misplaced, or a stray statement, or else a header or a statement that is understood or not. Reading a
row is to judge which, and to settle what follows for the outline (`readRow_eq`), so a script is read row by row
as a list of judgements (`readLines_eq`). What a row that is judged was read as are the cases of `JudgedRow` and
`JudgedText`. A `Run` is such a reading from one outline and state to another; `Run.invariant` is the induction
over its rows.
-/

namespace Phrasebook.Script
open Text

/-- What becomes of a row. -/
inductive Verdict where
  /-- another indentation was expected -/
  | misplaced (expected : Nat)
  /-- no statement may stand at the margin -/
  | stray
  /-- the header of a block; there is no node if it was not understood -/
  | header (node? : Option Node)
  /-- a statement; there is no node if it was not understood -/
  | statement (node? : Option Node)

namespace Verdict

/-- The node of a row that was accepted. -/
def node? : Verdict → Option Node
  | misplaced _ | stray => none
  | header node? | statement node? => node?

/-- The row was turned down. -/
def isRejected (v : Verdict) : Bool :=
  v.node?.isNone

end Verdict

/-- A row and what becomes of it. -/
structure Judgement where
  row : Row
  verdict : Verdict

/-- The rows of a script: the lines with something on them besides blanks and a comment. -/
def rowsOf (source : String) : List Row :=
  (lines source.toList).zipIdx.filterMap fun (line, index) => Row.ofLine? line index

/-- A line of a source is one of its rows. -/
structure IsRow (source : String) (k n : Nat) (row : Row) : Prop where
  line : ∃ line, (lines source.toList)[k]? = some line ∧ Row.ofLine? line k = some row
  /-- so many rows stand before it -/
  before : n = (((lines source.toList).take k).zipIdx.filterMap fun (line, index) => Row.ofLine? line index).length

/-- The lines of a source around one that is a row. They are the same if another line stands there. -/
theorem IsRow.split {source : String} {k n : Nat} {row : Row} (isRow : IsRow source k n row) :
    ∃ line behind, Row.ofLine? line k = some row ∧
      (lines source.toList).zipIdx = ((lines source.toList).take k).zipIdx ++ (line, k) :: behind ∧
      ∀ source' other, lines (String.toList source') = (lines source.toList).set k other →
        (lines source'.toList).zipIdx = ((lines source.toList).take k).zipIdx ++ (other, k) :: behind := by
  obtain ⟨line, found, placed⟩ := isRow.line
  obtain ⟨inside, rfl⟩ := List.getElem?_eq_some_iff.1 found
  have numbered (x : List Char) :
      ((lines source.toList).take k ++ x :: (lines source.toList).drop (k + 1)).zipIdx =
        ((lines source.toList).take k).zipIdx ++ (x, k) :: ((lines source.toList).drop (k + 1)).zipIdx (k + 1) := by
    rw [List.zipIdx_append, List.length_take_of_le (Nat.le_of_lt inside), List.zipIdx_cons, Nat.zero_add]
  refine ⟨_, ((lines source.toList).drop (k + 1)).zipIdx (k + 1), placed, ?_, fun source' other changed => ?_⟩
  · rw [← numbered, List.getElem_cons_drop, List.take_append_drop]
  · rw [← numbered, changed, List.set_eq_take_append_cons_drop, if_pos inside]

/-- It has the place among the rows that its number says. -/
theorem IsRow.getElem?_rowsOf {source : String} {k n : Nat} {row : Row} (isRow : IsRow source k n row) :
    (rowsOf source)[n]? = some row := by
  obtain ⟨line, behind, placed, split, -⟩ := isRow.split
  rw [rowsOf, split, List.filterMap_append, isRow.before, List.getElem?_append_right (Nat.le_refl _), Nat.sub_self,
    List.filterMap_cons]
  simp only [placed, List.getElem?_cons_zero]

/-- What is found among the lines of a list that are kept was found on one of them, behind those that are kept before
it. -/
theorem exists_line_of_getElem? {α β : Type} {f : α × Nat → Option β} (lines : List α) (first : Nat) {n : Nat} {b : β}
    (found : ((lines.zipIdx first).filterMap f)[n]? = some b) :
    ∃ k line, lines[k]? = some line ∧ f (line, first + k) = some b ∧
      n = (((lines.take k).zipIdx first).filterMap f).length := by
  induction lines generalizing first n with
  | nil => cases found
  | cons line rest ih =>
    rw [List.zipIdx_cons, List.filterMap_cons] at found
    -- one line further on, those before it are one more
    have later {n : Nat} (found : ((rest.zipIdx (first + 1)).filterMap f)[n]? = some b) :
        ∃ k line', (line :: rest)[k + 1]? = some line' ∧ f (line', first + (k + 1)) = some b ∧
          n = (((rest.take k).zipIdx (first + 1)).filterMap f).length := by
      obtain ⟨k, line', there, gives, before⟩ := ih (first + 1) found
      exact ⟨k, line', there, by rwa [Nat.add_comm k 1, ← Nat.add_assoc], before⟩
    cases kept : f (line, first) with
    | none =>
      rw [kept] at found
      obtain ⟨k, line', there, gives, before⟩ := later found
      refine ⟨k + 1, line', there, gives, ?_⟩
      rw [List.take_succ_cons, List.zipIdx_cons, List.filterMap_cons]
      simp only [kept, before]
    | some b' =>
      rw [kept] at found
      cases n with
      | zero => exact ⟨0, line, rfl, kept.trans found, rfl⟩
      | succ n =>
        obtain ⟨k, line', there, gives, before⟩ := later found
        refine ⟨k + 1, line', there, gives, ?_⟩
        rw [List.take_succ_cons, List.zipIdx_cons, List.filterMap_cons]
        simp only [kept, before, List.length_cons]

/-- Every row is a line of its source. -/
theorem exists_isRow {source : String} {n : Nat} {row : Row} (found : (rowsOf source)[n]? = some row) :
    ∃ k, IsRow source k n row := by
  obtain ⟨k, line, there, placed, before⟩ := exists_line_of_getElem? (lines source.toList) 0 found
  rw [Nat.zero_add] at placed
  exact ⟨k, ⟨line, there, placed⟩, before⟩

namespace Row

/-- The place where a row starts. -/
def start (row : Row) : Span :=
  .withinLine row.number row.column 0 0

/-- The error that a row reports whose indentation is another than was expected. -/
def misplacedError (row : Row) (expected : Nat) (span : Span) : Diagnostic :=
  .error span .structural s!"indentation error: expected {expected} columns, found {row.indent}"

end Row

/-- The error that a statement reports at the margin where none may stand. -/
def strayError (span : Span) : Diagnostic :=
  .error span .structural "statements must be placed inside a trigger"

namespace Outline

/-- The outline in which a row at an indentation stands. -/
def moved (o : Outline) (indent : Nat) : Outline :=
  ((o.close indent).indentLine indent).1

/-- The indentation that is expected, if a row has another one. -/
def expected? (o : Outline) (indent : Nat) : Option Nat :=
  ((o.close indent).indentLine indent).2

end Outline

/-- Judges a row whose indentation fits. -/
def judgeText (r : Registry) (o : Outline) (row : Row) : Parsing Verdict := do
  let text := String.ofList row.text
  match row.header? with
  | some header => do
    let node? ← readHeader r o.isAtMargin header
    pure (.header node?)
  | none =>
    if o.isAtMargin && !r.config.allowTopLevel then do
      reportLine text strayError
      pure .stray
    else do
      let node? ← readStatement r text
      pure (.statement node?)

/-- Judges a row, at which blocks may have to be closed. -/
def judge (r : Registry) (o : Outline) (row : Row) : Parsing Verdict := do
  Parsing.change fun c => o.leave row.indent { c with line := row.number, column := row.column }
  match o.expected? row.indent with
  | some expected => do
    reportLine (String.ofList row.text) (row.misplacedError expected)
    pure (.misplaced expected)
  | none => judgeText r (o.moved row.indent) row

/-- How a row is judged whose indentation fits: what it was read as, and what that has come to. -/
inductive JudgedText (r : Registry) (o : Outline) (row : Row) (c c' : Context) : Verdict → Prop where
  | header {header : String} {node? : Option Node} (isHeader : row.header? = some header)
    (read : Ends (readHeader r o.isAtMargin header) c node? c') : JudgedText r o row c c' (.header node?)
  | stray (isHeader : row.header? = none) (stray : (o.isAtMargin && !r.config.allowTopLevel) = true)
    (reported : Ends (reportLine (String.ofList row.text) strayError) c () c') : JudgedText r o row c c' .stray
  | statement {node? : Option Node} (isHeader : row.header? = none)
    (mayStand : (o.isAtMargin && !r.config.allowTopLevel) = false)
    (read : Ends (readStatement r (String.ofList row.text)) c node? c') : JudgedText r o row c c' (.statement node?)

/-- How a row is judged, once the blocks are left that end before it. -/
inductive JudgedRow (r : Registry) (o : Outline) (row : Row) (c c' : Context) : Verdict → Prop where
  | misplaced {expected : Nat} (fits : o.expected? row.indent = some expected)
    (reported : Ends (reportLine (String.ofList row.text) (row.misplacedError expected))
      (o.leave row.indent { c with line := row.number, column := row.column }) () c') :
    JudgedRow r o row c c' (.misplaced expected)
  | text {verdict : Verdict} (fits : o.expected? row.indent = none)
    (judged : Ends (judgeText r (o.moved row.indent) row)
      (o.leave row.indent { c with line := row.number, column := row.column }) verdict c') :
    JudgedRow r o row c c' verdict

section Judging

variable {r : Registry} {o : Outline} {row : Row} {c c' : Context} {verdict : Verdict}

theorem judgedText_of_ends (ends : Ends (judgeText r o row) c verdict c') : JudgedText r o row c c' verdict := by
  unfold judgeText at ends
  cases isHeader : row.header? with
  | some header =>
    rw [isHeader] at ends
    obtain ⟨node?, c₁, read, ends⟩ := ends.of_bind
    cases ends
    exact .header isHeader read
  | none =>
    rw [isHeader] at ends
    dsimp only at ends
    split at ends
    next stray =>
      obtain ⟨u, c₁, reported, ends⟩ := ends.of_bind
      cases ends
      exact .stray isHeader stray reported
    next mayStand =>
      obtain ⟨node?, c₁, read, ends⟩ := ends.of_bind
      cases ends
      exact .statement isHeader (Bool.eq_false_iff.2 mayStand) read

theorem judgedRow_of_ends (ends : Ends (judge r o row) c verdict c') : JudgedRow r o row c c' verdict := by
  unfold judge at ends
  obtain ⟨_, c₁, left, ends⟩ := ends.of_bind
  cases left
  cases fits : o.expected? row.indent with
  | some expected =>
    rw [fits] at ends
    obtain ⟨u, c₂, reported, ends⟩ := ends.of_bind
    cases ends
    exact .misplaced fits reported
  | none =>
    rw [fits] at ends
    exact .text fits ends

end Judging

/-- Settles what follows from a verdict for the outline in which the row stands. -/
def settle (o : Outline) (row : Row) : Verdict → Parsing Outline
  | .misplaced _ | .stray | .statement none => pure o
  | .header node? => do
    let c ← Parsing.context
    let block : OpenBlock := { indent := row.indent, header := node?, span := c.span ⟨0, 0⟩ }
    Parsing.change block.enter
    pure (o.open_ block)
  | .statement (some node) => pure (o.add { node, children := [] })

/-- **Reading a row is judging it and settling what follows.** -/
theorem readRow_eq (r : Registry) (o : Outline) (row : Row) :
    readRow r o row = judge r o row >>= settle (o.moved row.indent) row := by
  unfold readRow judge
  simp only [bind_assoc]
  congr 1
  funext _
  show (match o.expected? row.indent with
    | some expected => _
    | none => readText r row (o.moved row.indent)) = _
  cases o.expected? row.indent with
  | some expected =>
    simp only [bind_assoc, pure_bind, settle]
    rfl
  | none =>
    dsimp only
    unfold readText judgeText
    cases row.header? with
    | some header => simp only [bind_assoc, pure_bind, settle]
    | none =>
      dsimp only
      split
      · simp only [bind_assoc, pure_bind, settle]
        rfl
      · simp only [bind_assoc, pure_bind]
        congr 1
        funext node?
        cases node? <;> rfl

/-- Judges the lines of a script in order. -/
def judgeLines (r : Registry) (o : Outline) :
    List (List Char × Nat) → Parsing (List Judgement × Outline)
  | [] => pure ([], o)
  | (line, index) :: rest => do
    Parsing.checkCancelled
    match Row.ofLine? line index with
    | none => judgeLines r o rest
    | some row => do
      let verdict ← judge r o row
      let o ← settle (o.moved row.indent) row verdict
      let (judgements, o) ← judgeLines r o rest
      pure ({ row, verdict } :: judgements, o)

/-- Reading lines is judging them. -/
theorem readLines_eq (r : Registry) (o : Outline) (lines : List (List Char × Nat)) :
    readLines r o lines = Prod.snd <$> judgeLines r o lines := by
  induction lines generalizing o with
  | nil => simp [readLines, judgeLines]
  | cons first rest ih =>
    obtain ⟨line, index⟩ := first
    simp only [readLines, judgeLines, map_bind]
    congr 1
    funext _
    cases Row.ofLine? line index with
    | none => simp only [pure_bind, ih]
    | some row => simp only [readRow_eq, bind_assoc, map_bind, ih, bind_pure_comp, Functor.map_map]

/-- Lines are judged one after the other. -/
theorem judgeLines_append (r : Registry) (o : Outline) (first rest : List (List Char × Nat)) :
    judgeLines r o (first ++ rest) = (do
      let (judgements, o) ← judgeLines r o first
      let (judgements', o) ← judgeLines r o rest
      pure (judgements ++ judgements', o)) := by
  induction first generalizing o with
  | nil => simp [judgeLines]
  | cons line first ih =>
    obtain ⟨line, index⟩ := line
    simp only [List.cons_append, judgeLines, bind_assoc]
    congr 1
    funext _
    cases Row.ofLine? line index with
    | none => exact ih o
    | some row => simp only [ih, bind_assoc, pure_bind, List.cons_append]

/-- What judging lines consists of at a line that is a row. -/
theorem ends_judgeLines_row {r : Registry} {o o' : Outline} {first rest : List (List Char × Nat)}
    {line : List Char} {index : Nat} {row : Row} (isRow : Row.ofLine? line index = some row) {c c' : Context}
    {judged : List Judgement}
    (h : Ends (judgeLines r o (first ++ (line, index) :: rest)) c (judged, o') c') :
    ∃ js verdict ks o₁ c₁ c₂ c₃ o₂ c₄, judged = js ++ { row, verdict } :: ks ∧
      Ends (judgeLines r o first) c (js, o₁) c₁ ∧ Ends Parsing.checkCancelled c₁ () c₂ ∧
      Ends (judge r o₁ row) c₂ verdict c₃ ∧ Ends (settle (o₁.moved row.indent) row verdict) c₃ o₂ c₄ ∧
      Ends (judgeLines r o₂ rest) c₄ (ks, o') c' := by
  rw [judgeLines_append] at h
  obtain ⟨⟨js, o₁⟩, c₁, ahead, h⟩ := h.of_bind
  obtain ⟨⟨here, o''⟩, c'', h, ended⟩ := h.of_bind
  cases ended
  rw [judgeLines] at h
  obtain ⟨_, c₂, check, h⟩ := h.of_bind
  rw [isRow] at h
  obtain ⟨verdict, c₃, judged, h⟩ := h.of_bind
  obtain ⟨o₂, c₄, settled, h⟩ := h.of_bind
  obtain ⟨⟨ks, o''⟩, c'', behind, ended⟩ := h.of_bind
  cases ended
  exact ⟨js, verdict, ks, o₁, c₁, c₂, c₃, o₂, c₄, rfl, ahead, check, judged, settled, behind⟩

/-- Lines that are judged are read. -/
theorem ends_readLines {r : Registry} {o o' : Outline} {lines : List (List Char × Nat)} {c c' : Context}
    {judgements : List Judgement} (h : Ends (judgeLines r o lines) c (judgements, o') c') :
    Ends (readLines r o lines) c o' c' := by
  rw [readLines_eq, map_eq_pure_bind]
  exact h.bind (ends_pure o' c')

/-- Lines are read one after the other. -/
theorem readLines_append (r : Registry) (o : Outline) (first rest : List (List Char × Nat)) :
    readLines r o (first ++ rest) = readLines r o first >>= fun o => readLines r o rest := by
  simp [readLines_eq, judgeLines_append]

/-- Rows that are read one after the other, from one outline and state to another. -/
inductive Run (r : Registry) : Outline → Context → List Judgement → Outline → Context → Prop where
  | done (o c) : Run r o c [] o c
  | checked {o c judgements o' c'} :
    Run r o { c with cancellation := c.cancellation.tick } judgements o' c' →
      Run r o c judgements o' c'
  | row {o c row verdict c₁ o₁ c₂ judgements o' c'} :
    Ends (judge r o row) c verdict c₁ → Ends (settle (o.moved row.indent) row verdict) c₁ o₁ c₂ →
      Run r o₁ c₂ judgements o' c' → Run r o c ({ row, verdict } :: judgements) o' c'

/-- **What holds before a run and is kept by every row holds after it.** `n` rows were read before. -/
theorem Run.invariant {r : Registry} {all : List Judgement} {I : Nat → Outline → Context → Prop}
    (checked : ∀ n o c, I n o c → I n o { c with cancellation := c.cancellation.tick })
    (step : ∀ n row verdict, all[n]? = some { row, verdict } → ∀ o c c₁ o₁ c₂, I n o c →
      Ends (judge r o row) c verdict c₁ → Ends (settle (o.moved row.indent) row verdict) c₁ o₁ c₂ →
      I (n + 1) o₁ c₂)
    {o o' : Outline} {c c' : Context} (run : Run r o c all o' c') (start : I 0 o c) :
    I all.length o' c' := by
  -- the rows that are left are a suffix of all of them
  have suffix : ∀ {o c judgements o' c'}, Run r o c judgements o' c' →
      ∀ n, all.drop n = judgements → I n o c → I (n + judgements.length) o' c' := by
    intro o c judgements o' c' run
    induction run with
    | done => exact fun n _ holds => holds
    | checked _ ih => exact fun n left holds => ih n left (checked n _ _ holds)
    | @row o c row verdict c₁ o₁ c₂ judgements o' c' judged settled _ ih =>
      intro n left holds
      have here : all[n]? = some { row, verdict } := by
        rw [← List.head?_drop, left, List.head?_cons]
      have next : all.drop (n + 1) = judgements := by
        rw [← List.tail_drop, left, List.tail_cons]
      have later := ih (n + 1) next (step n row verdict here o c c₁ o₁ c₂ holds judged settled)
      rw [List.length_cons, Nat.add_comm judgements.length 1, ← Nat.add_assoc]
      exact later
  have whole := suffix run 0 List.drop_zero start
  rwa [Nat.zero_add] at whole

/-- Every row of a run was judged in some state. -/
theorem Run.judges {r : Registry} {o o' : Outline} {c c' : Context} {judged : List Judgement}
    (run : Run r o c judged o' c') {j : Judgement} (among : j ∈ judged) :
    ∃ o c c', Ends (judge r o j.row) c j.verdict c' := by
  induction run with
  | done => exact (List.not_mem_nil among).elim
  | checked _ ih => exact ih among
  | row judges _ _ ih =>
    rcases List.mem_cons.1 among with rfl | among
    · exact ⟨_, _, _, judges⟩
    · exact ih among

/-- A check that the parse goes on only counts. -/
theorem eq_of_checkCancelled {c c' : Context} (check : Ends Parsing.checkCancelled c () c') :
    c' = { c with cancellation := c.cancellation.tick } := by
  unfold Ends Parsing.checkCancelled Parsing.of at check
  dsimp only at check
  split at check <;> cases check
  rfl

/-- Lines that are judged are a run over their rows. -/
theorem run_of_judgeLines {r : Registry} {o o' : Outline} {lines : List (List Char × Nat)}
    {c c' : Context} {judgements : List Judgement}
    (h : Ends (judgeLines r o lines) c (judgements, o') c') :
    Run r o c judgements o' c' ∧
      judgements.map Judgement.row = lines.filterMap fun (line, index) => Row.ofLine? line index := by
  induction lines generalizing o c judgements with
  | nil =>
    cases h
    exact ⟨.done _ _, rfl⟩
  | cons first rest ih =>
    obtain ⟨line, index⟩ := first
    rw [judgeLines] at h
    obtain ⟨_, c₁, check, h⟩ := h.of_bind
    rw [eq_of_checkCancelled check] at h
    cases found : Row.ofLine? line index with
    | none =>
      rw [found] at h
      obtain ⟨run, rows⟩ := ih h
      refine ⟨.checked run, ?_⟩
      rw [rows, List.filterMap_cons]
      simp only [found]
    | some row =>
      rw [found] at h
      obtain ⟨verdict, c₂, judged, h⟩ := h.of_bind
      obtain ⟨o₁, c₃, settled, h⟩ := h.of_bind
      obtain ⟨⟨judgements', o''⟩, c₄, others, h⟩ := h.of_bind
      cases h
      obtain ⟨run, rows⟩ := ih others
      refine ⟨.checked (.row judged settled run), ?_⟩
      rw [List.map_cons, rows, List.filterMap_cons]
      simp only [found]

end Phrasebook.Script

namespace Phrasebook.Registry
open Script

/-- What becomes of the rows of a script that is parsed from a state. -/
def judgements (r : Registry) (source : String) (c : Context) : Except Cause (List Judgement) :=
  match judgeLines r {} (Text.lines source.toList).zipIdx c with
  | (.error cause, _) => .error cause
  | (.ok (judgements, _), _) => .ok judgements

/-- The rows of a script are judged line by line. -/
theorem ends_of_judgements {r : Registry} {source : String} {c : Context} {judged : List Judgement}
    (judges : r.judgements source c = .ok judged) :
    ∃ o c', Ends (judgeLines r {} (Text.lines source.toList).zipIdx) c (judged, o) c' := by
  unfold judgements at judges
  split at judges
  next => cases judges
  next ends =>
    cases judges
    exact ⟨_, _, ends⟩

/-- A row is judged after the rows before it. -/
theorem judged_before {r : Registry} {source : String} {c : Context} {judged : List Judgement}
    (judges : r.judgements source c = .ok judged) {k n : Nat} {row : Row} (isRow : IsRow source k n row) :
    ∃ js verdict ks o c₁ c₂ c₃, judged = js ++ ⟨row, verdict⟩ :: ks ∧ List.length js = n ∧
      Ends (readLines r {} ((Text.lines source.toList).take k).zipIdx) c o c₁ ∧ Run r {} c js o c₁ ∧
      Ends Parsing.checkCancelled c₁ () c₂ ∧ Ends (judge r o row) c₂ verdict c₃ := by
  obtain ⟨line, behind, placed, split, -⟩ := isRow.split
  obtain ⟨o', c', judging⟩ := ends_of_judgements judges
  rw [split] at judging
  obtain ⟨js, verdict, ks, o, c₁, c₂, c₃, -, -, rfl, ahead, check, judged, -⟩ :=
    ends_judgeLines_row placed judging
  obtain ⟨run, rows⟩ := run_of_judgeLines ahead
  refine ⟨js, verdict, ks, o, c₁, c₂, c₃, rfl, ?_, ends_readLines ahead, run, check, judged⟩
  rw [isRow.before, ← rows, List.length_map]

/-- **A script that is parsed is a run over its rows**, after which all blocks are closed. -/
theorem parseScript_run {r : Registry} {source : String} {c : Context} {s : Script}
    (parsed : r.parseScript source c = .ok s) :
    ∃ judgements o c', r.judgements source c = .ok judgements ∧
      judgements.map Judgement.row = rowsOf source ∧ Run r {} c judgements o c' ∧
      s.statements = (o.close 0).statements ∧ s.diagnostics = (o.leave 0 c').diagnostics := by
  unfold parseScript at parsed
  rw [readLines_eq] at parsed
  rcases fails_or_ends (judgeLines r {} (Text.lines source.toList).zipIdx) c with
    ⟨cause, c', fails⟩ | ⟨⟨judgements, o⟩, c', ends⟩
  · have stops : (Prod.snd <$> judgeLines r {} (Text.lines source.toList).zipIdx) c =
        (.error cause, c') := by
      rw [map_eq_pure_bind]
      exact bind_error fails
    rw [stops] at parsed
    cases parsed
  · have goes : (Prod.snd <$> judgeLines r {} (Text.lines source.toList).zipIdx) c = (.ok o, c') := by
      rw [map_eq_pure_bind, ends.bind_apply]
      rfl
    rw [goes] at parsed
    cases parsed
    obtain ⟨run, rows⟩ := run_of_judgeLines ends
    refine ⟨judgements, o, c', ?_, rows, run, rfl, rfl⟩
    unfold Ends at ends
    rw [Registry.judgements, ends]

end Phrasebook.Registry
