import Phrasebook.Proofs.Parse.Limit
import Phrasebook.Proofs.Script.Rejected
import Phrasebook.Proofs.Script.Scopes

/-!
# The attempts on a row

The text of a row is tried as one category, and if that fails it may be tried as another. The row is accepted by
the last attempt that is made, or else the error of the first is reported (`read_attempts`). So an attempt that
runs into the recursion limit ends the row if it is the first one and no other is accepted. If it is the second,
the row is turned down as well, but for the reason of the first; and what runs into the limit as an event may
still be accepted as a section (`AfterLimit`).
-/

namespace Phrasebook.Script
open Text Parse

/-- How a text is tried: as a category, and after some faults as another. -/
structure Trying where
  text : String
  first : Category
  second : Fault → Option Category

/-- How a row is tried whose indentation fits, if it may stand where it does. A statement is not tried again once
it ran into the recursion limit. -/
def Row.trying? (r : Registry) (atMargin : Bool) (row : Row) : Option Trying :=
  match row.header? with
  | some header =>
    some
      { text := header
        first := if atMargin then .event else .sectionHead
        second := fun _ => if atMargin && r.config.allowTopLevel then some .sectionHead else none }
  | none =>
    if atMargin && !r.config.allowTopLevel then none
    else
      some
        { text := String.ofList row.text
          first := .effect
          second := fun fault =>
            match fault.cause with
            | .recursionLimit _ => none
            | _ => some .condition }

namespace Trying

/-- The text as the second category, if there is one after a fault. -/
def again (t : Trying) (r : Registry) (fault : Fault) : Parsing (Except Fault Node) :=
  match t.second fault with
  | none => pure (.error fault)
  | some category => attempt r category t.text

/-- Reads the text in one way or the other. -/
def read (t : Trying) (r : Registry) : Parsing (Option Node) :=
  understand (attempt r t.first t.text) (t.again r) t.text

/-- The attempts that are made from a state, unless the parse is cancelled. -/
def attempts (t : Trying) (r : Registry) (c : Context) : List (Except Fault Node) :=
  match r.parseLine t.first t.text c with
  | (.ok node, _) => [.ok node]
  | (.error fault, c) =>
    match t.second fault with
    | none => [.error fault]
    | some category => [.error fault, (r.parseLine category t.text c).1]

end Trying

theorem readHeader_eq_read (r : Registry) (atMargin : Bool) (header : String) :
    readHeader r atMargin header =
      Trying.read
        { text := header
          first := if atMargin then .event else .sectionHead
          second := fun _ => if atMargin && r.config.allowTopLevel then some .sectionHead else none } r := by
  rw [readHeader_eq, Trying.read]
  congr 1
  funext fault
  unfold Trying.again
  dsimp only
  cases atMargin && r.config.allowTopLevel <;> rfl

theorem readStatement_eq_read (r : Registry) (text : String) :
    readStatement r text =
      Trying.read
        { text
          first := .effect
          second := fun fault =>
            match fault.cause with
            | .recursionLimit _ => none
            | _ => some .condition } r := by
  rw [readStatement_eq, Trying.read]
  congr 1
  funext fault
  unfold Trying.again
  dsimp only
  generalize fault.cause = cause
  cases cause <;> rfl

/-- A row whose indentation fits is tried, unless it may not stand where it does. -/
theorem judgeText_eq_read {r : Registry} {o : Outline} {row : Row} {t : Trying}
    (trying : row.trying? r o.isAtMargin = some t) {c c' : Context} {verdict : Verdict}
    (ends : Ends (judgeText r o row) c verdict c') : Ends (t.read r) c verdict.node? c' := by
  unfold Row.trying? at trying
  cases judgedText_of_ends ends with
  | header isHeader read =>
    rw [isHeader] at trying
    cases trying
    rwa [readHeader_eq_read] at read
  | stray isHeader stray =>
    simp only [isHeader, stray, if_true] at trying
    cases trying
  | statement isHeader mayStand read =>
    simp only [isHeader, mayStand, Bool.false_eq_true, if_false] at trying
    cases trying
    rwa [readStatement_eq_read] at read

/-- A row whose indentation fits and that is not tried is a stray statement. -/
theorem judgeText_untried {r : Registry} {o : Outline} {row : Row} (untried : row.trying? r o.isAtMargin = none)
    {c c' : Context} {verdict : Verdict} (ends : Ends (judgeText r o row) c verdict c') :
    verdict = .stray ∧ Ends (reportLine (String.ofList row.text) strayError) c () c' := by
  unfold Row.trying? at untried
  cases judgedText_of_ends ends with
  | header isHeader =>
    rw [isHeader] at untried
    cases untried
  | stray _ _ reported => exact ⟨rfl, reported⟩
  | statement isHeader mayStand =>
    simp only [isHeader, mayStand, Bool.false_eq_true, if_false] at untried
    cases untried

section Read

variable {r : Registry} {c c' : Context}

/-- After attempts that fail a fault is reported at the text. -/
theorem Adds.reportFault {c₁ : Context} (nothing : Adds c [] c₁) (text : String) (fault : Fault) :
    Adds c [.ofFault (.withinLine c.line c.column 0 text.utf8ByteSize) fault]
      (c₁.report (.ofFault (c₁.span ⟨0, text.utf8ByteSize⟩) fault)) := by
  have here : c₁.span ⟨0, text.utf8ByteSize⟩ = .withinLine c.line c.column 0 text.utf8ByteSize := by
    rw [Context.span, nothing.line, nothing.column]
  rw [← here]
  exact nothing.trans (.report c₁ _)

/-- What comes of a text after some attempts: it is accepted by the last of them, or else the fault of the first
is reported, and nothing else. -/
inductive Decided (text : String) (c c' : Context) : List (Except Fault Node) → Option Node → Prop where
  | accepted {attempts node} : attempts.getLast? = some (.ok node) → Decided text c c' attempts (some node)
  | refused {fault rest} : (∀ a ∈ rest, ∃ other, a = .error other) →
    Adds c [.ofFault (.withinLine c.line c.column 0 text.utf8ByteSize) fault] c' →
    Decided text c c' (.error fault :: rest) none

/-- **A text is accepted by the last attempt, or the fault of the first is reported.** The attempt that accepts it is
made where the first one is, and nothing is reported before it. -/
theorem Trying.read_attempts (t : Trying) {node? : Option Node} (ends : Ends (t.read r) c node? c') :
    Decided t.text c c' (t.attempts r c) node? ∧ ∀ node, node? = some node →
      ∃ category d, Adds c [] d ∧ r.parseLine category t.text d = (.ok node, c') := by
  obtain ⟨result, c₁, tried, ends⟩ := ends.of_bind
  have parsed := ends_attempt tried
  unfold attempts
  rw [parsed]
  cases result with
  | ok node =>
    cases ends
    refine ⟨.accepted rfl, fun _ same => ?_⟩
    cases same
    exact ⟨t.first, c, .refl c, parsed⟩
  | error fault =>
    have nothing := adds_attempt_error parsed
    obtain ⟨result, c₂, again, ends⟩ := ends.of_bind
    unfold Trying.again at again
    dsimp only
    cases second : t.second fault with
    | none =>
      rw [second] at again
      cases again
      obtain ⟨_, c₃, reported, ends⟩ := ends.of_bind
      cases reported
      cases ends
      exact ⟨.refused (List.forall_mem_nil _) (nothing.reportFault t.text fault), nofun⟩
    | some category =>
      rw [second] at again
      have parsed' := ends_attempt again
      dsimp only
      rw [parsed']
      cases result with
      | ok node =>
        cases ends
        refine ⟨.accepted rfl, fun _ same => ?_⟩
        cases same
        exact ⟨category, c₁, nothing, parsed'⟩
      | error other =>
        have nothing' := nothing.trans (adds_attempt_error parsed')
        obtain ⟨_, c₃, reported, ends⟩ := ends.of_bind
        cases reported
        cases ends
        refine ⟨.refused (fun a mem => ⟨other, List.mem_singleton.1 mem⟩) ?_, nofun⟩
        exact Adds.reportFault nothing' t.text fault

/-- What is tried is the text of the row, or what stands before the colon at its end. -/
theorem text_of_trying? {row : Row} {atMargin : Bool} {t : Trying} (trying : row.trying? r atMargin = some t) :
    t.text.toList <+: row.text := by
  unfold Row.trying? at trying
  split at trying
  next header isHeader =>
    cases trying
    unfold Row.header? at isHeader
    split at isHeader
    · cases isHeader
      rw [String.toList_ofList]
      exact List.dropLast_prefix _
    · cases isHeader
  next =>
    split at trying
    · cases trying
    · cases trying
      simp only [String.toList_ofList, List.prefix_refl]

/-- **A row that is accepted is parsed where it stands.** -/
theorem parsed_of_judge {o : Outline} {row : Row} {verdict : Verdict} {node : Node}
    (ends : Ends (judge r o row) c verdict c') (accepted : verdict.node? = some node) :
    ∃ category text d d', text.toList <+: row.text ∧ d.line = row.number ∧ d.column = row.column ∧
      r.parseLine category text d = (.ok node, d') := by
  have left := o.adds_leave row.indent { c with line := row.number, column := row.column }
  cases judgedRow_of_ends ends with
  | misplaced => cases accepted
  | text _ ends =>
    cases trying : row.trying? r (o.moved row.indent).isAtMargin with
    | none =>
      rw [(judgeText_untried trying ends).1] at accepted
      cases accepted
    | some t =>
      obtain ⟨category, d, adds, parsed⟩ := (t.read_attempts (judgeText_eq_read trying ends)).2 node accepted
      exact ⟨category, t.text, d, c', text_of_trying? trying, adds.line.trans left.line,
        adds.column.trans left.column, parsed⟩

end Read

/-- The attempts that are made on a row in an outline. -/
def attemptsOn (r : Registry) (o : Outline) (row : Row) (c : Context) : List (Except Fault Node) :=
  match o.expected? row.indent, row.trying? r (o.moved row.indent).isAtMargin with
  | none, some t => t.attempts r c
  | _, _ => []

/-- What comes of a row on which an attempt ran into the recursion limit. -/
inductive AfterLimit (r : Registry) (row : Row) (atMargin : Prop) :
    List (Except Fault Node) → Verdict → List Diagnostic → Prop where
  /-- The limit is fatal to the row. -/
  | fatal {first : Fault} {rest verdict} {error : Diagnostic} :
    RunsIntoLimit (.error first : Except Fault Node) → (∀ a ∈ rest, ∃ other, a = .error other) →
    verdict.node? = none → error.isError = true → error.code = .recursionLimit → error.line = row.number →
    AfterLimit r row atMargin (.error first :: rest) verdict [error]
  /-- The row is turned down for another reason. -/
  | masked {first second : Fault} {verdict} {error : Diagnostic} :
    ¬ RunsIntoLimit (.error first : Except Fault Node) → RunsIntoLimit (.error second : Except Fault Node) →
    verdict.node? = none → error.isError = true → error.code = .ofCause first.cause →
    error.code ≠ .recursionLimit → error.line = row.number →
    AfterLimit r row atMargin [.error first, .error second] verdict [error]
  /-- A header at the margin is no event within the limit, and is accepted as a section. -/
  | rescued {first : Fault} {node : Node} {verdict reported} :
    RunsIntoLimit (.error first : Except Fault Node) → row.header?.isSome = true → atMargin →
    r.config.allowTopLevel = true → verdict.node? = some node →
    AfterLimit r row atMargin [.error first, .ok node] verdict reported

section Limit

variable {r : Registry} {o : Outline} {row : Row} {t : Trying} {c c' : Context}

/-- A text is tried once, or after some fault once more. -/
theorem Trying.attempts_eq (t : Trying) (r : Registry) (c : Context) :
    (∃ result, t.attempts r c = [result]) ∨
      ∃ fault category result, t.second fault = some category ∧ t.attempts r c = [.error fault, result] := by
  unfold attempts
  split
  · exact .inl ⟨_, rfl⟩
  · split
    next => exact .inl ⟨_, rfl⟩
    next category second => exact .inr ⟨_, category, _, second, rfl⟩

/-- What ran into the recursion limit is only tried again at the margin, as a header. -/
theorem second_of_limited {atMargin : Bool} (trying : row.trying? r atMargin = some t) {fault : Fault}
    (limited : RunsIntoLimit (.error fault : Except Fault Node)) {category : Category}
    (second : t.second fault = some category) :
    row.header?.isSome = true ∧ atMargin = true ∧ r.config.allowTopLevel = true := by
  unfold Row.trying? at trying
  split at trying
  next isHeader =>
    cases trying
    dsimp only at second
    split at second
    next mayStand =>
      rw [Bool.and_eq_true] at mayStand
      exact ⟨by rw [isHeader]; rfl, mayStand⟩
    next => cases second
  next =>
    split at trying
    · cases trying
    · cases trying
      obtain ⟨limit, place, same⟩ := limited
      cases same
      cases second

/-- Only the recursion limit is reported under its code. -/
theorem limit_of_code {cause : Cause} (code : Code.ofCause cause = .recursionLimit) :
    ∃ limit, cause = .recursionLimit limit := by
  cases cause with
  | recursionLimit limit => exact ⟨limit, rfl⟩
  | _ => cases code

/-- **What comes of a row on which an attempt ran into the recursion limit**, from a state in its line. -/
theorem judgeText_afterLimit {verdict : Verdict} (line : c.line = row.number) (column : c.column = row.column)
    (trying : row.trying? r o.isAtMargin = some t) (ends : Ends (judgeText r o row) c verdict c')
    (limited : ∃ a ∈ t.attempts r c, RunsIntoLimit a) :
    ∃ reported, c'.diagnostics = c.diagnostics ++ reported ∧
      AfterLimit r row (o.isAtMargin = true) (t.attempts r c) verdict reported := by
  obtain ⟨-, reported, -, reports⟩ := judgeText_ends (Bounds.permits_candidates r row.number) rfl line column ends
  have decided := (t.read_attempts (judgeText_eq_read trying ends)).1
  obtain ⟨a, mem, limited⟩ := limited
  have shape := t.attempts_eq r c
  generalize t.attempts r c = attempts at decided mem shape ⊢
  generalize accepted : verdict.node? = node? at decided
  cases decided with
  | @accepted _ node last =>
    -- the attempt that ran into the limit was not the last one
    rcases shape with ⟨result, rfl⟩ | ⟨fault, category, result, second, rfl⟩
    · obtain rfl : result = .ok node := Option.some.inj last
      obtain rfl := List.mem_singleton.1 mem
      obtain ⟨_, _, ok⟩ := limited
      cases ok
    · obtain rfl : result = .ok node := Option.some.inj last
      rcases List.mem_cons.1 mem with rfl | mem
      · obtain ⟨isHeader, atMargin, allowed⟩ := second_of_limited trying limited second
        exact ⟨reported, reports.diagnostics, .rescued limited isHeader atMargin allowed accepted⟩
      · obtain rfl := List.mem_singleton.1 mem
        obtain ⟨_, _, ok⟩ := limited
        cases ok
  | @refused fault rest others reports =>
    refine ⟨_, reports.diagnostics, ?_⟩
    by_cases first : RunsIntoLimit (.error fault : Except Fault Node)
    · refine .fatal first others accepted rfl ?_ line
      obtain ⟨limit, place, same⟩ := first
      cases same
      rfl
    · rcases shape with ⟨result, same⟩ | ⟨fault', category, result, -, same⟩
      · cases same
        exact absurd (List.mem_singleton.1 mem ▸ limited) first
      · cases same
        rcases List.mem_cons.1 mem with rfl | mem
        · exact absurd limited first
        · obtain rfl := List.mem_singleton.1 mem
          obtain ⟨limit, place, rfl⟩ := limited
          refine .masked first ⟨limit, place, rfl⟩ accepted rfl rfl (fun code => first ?_) line
          obtain ⟨limit, cause⟩ := limit_of_code code
          exact ⟨limit, fault.place, by rw [← cause]⟩

/-- No block is around a row exactly if it stands at the margin. -/
theorem OpenAt.isAtMargin_iff {judged : List Judgement} {n : Nat} {blocks : List Nat}
    (opened : OpenAt judged n o blocks) (here : indentAt (judged.map Judgement.row) n = row.indent) :
    (o.moved row.indent).isAtMargin = true ↔ blocksAround (judged.map Judgement.row) n = [] := by
  have frames := (opened.moved here).1.frames
  rw [← opened.reverse_goingOn, List.reverse_eq_nil_iff, Outline.isAtMargin, List.isEmpty_iff]
  rw [← List.map_eq_nil_iff (f := OpenBlock.frame), frames, List.map_eq_nil_iff]

/-- Later rows only add to what is reported. -/
theorem Run.grows {o' : Outline} {judged : List Judgement} (run : Run r o c judged o' c') :
    ∃ later, c'.diagnostics = c.diagnostics ++ later := by
  refine run.invariant (I := fun _ _ c' => ∃ later, c'.diagnostics = c.diagnostics ++ later)
    (fun _ _ _ grown => grown) ?_ ⟨[], (List.append_nil _).symm⟩
  rintro n row verdict - o c₀ c₁ o₁ c₂ ⟨later, grown⟩ judges settles
  obtain ⟨-, added, -, line, column, reported⟩ := judge_ends (Bounds.permits_candidates r row.number) rfl judges
  have nothing := (settle_ends line column settles).2.diagnostics
  exact ⟨_, by rw [nothing, List.append_nil, reported, grown, List.append_assoc]⟩

end Limit

end Phrasebook.Script

namespace Phrasebook.Registry
open Script Parse

variable {r : Registry} {source : String} {c : Context}

/-- A row of a script that is parsed is come to and judged, and what it reports stands in what is reported for the
script between what the rows before it and those after it report. -/
theorem parseScript_row {s : Script} (parsed : r.parseScript source c = .ok s) :
    ∃ judged, r.judgements source c = .ok judged ∧ judged.map Judgement.row = rowsOf source ∧
      ∀ k n row, IsRow source k n row → ∃ o d verdict d' blocks later, judged[n]? = some { row, verdict } ∧
        Ends (r.comeTo source k row) c o d ∧ Ends (r.judgeHere o row) d verdict d' ∧
        d.line = row.number ∧ d.column = row.column ∧ OpenAt judged n o blocks ∧
        s.diagnostics = d'.diagnostics ++ later := by
  obtain ⟨judged, -, -, judges, rows, -⟩ := parseScript_run parsed
  obtain ⟨o', c', judging⟩ := ends_of_judgements judges
  have all : s.diagnostics = c'.diagnostics ++ o'.warnings 0 := by
    cases parsed.symm.trans (parseScript_of_ends (ends_readLines judging))
    rfl
  refine ⟨judged, judges, rows, fun k n row isRow => ?_⟩
  obtain ⟨line, behind, placed, split, -⟩ := isRow.split
  rw [split] at judging
  obtain ⟨js, verdict, ks, o, c₁, c₂, c₃, o₂, c₄, rfl, ahead, check, judged, settles, others⟩ :=
    ends_judgeLines_row placed judging
  obtain ⟨run, rowsAhead⟩ := run_of_judgeLines ahead
  have count : js.length = n := by rw [isRow.before, ← rowsAhead, List.length_map]
  obtain ⟨blocks, opened⟩ := run.openAt ({ row, verdict } :: ks)
  rw [count] at opened
  obtain ⟨_, d, came, here⟩ := judged.of_bind
  have atRow := (o.adds_leave row.indent { c₂ with line := row.number, column := row.column })
  cases came
  obtain ⟨-, -, -, line, column, -⟩ := judge_ends (Bounds.permits_candidates r row.number) rfl judged
  obtain ⟨later, grown⟩ := (run_of_judgeLines others).1.grows
  rw [(settle_ends line column settles).2.diagnostics, List.append_nil] at grown
  refine ⟨o, _, verdict, c₃, blocks, later ++ o'.warnings 0, ?_,
    (ends_readLines ahead).bind (check.bind (Ends.bind rfl (ends_pure o _))), here, atRow.line, atRow.column,
    opened, ?_⟩
  · rw [← count, List.getElem?_append_right (Nat.le_refl _), Nat.sub_self, List.getElem?_cons_zero]
  · rw [all, grown, List.append_assoc]

/-- **What comes of a row of a script on which an attempt ran into the recursion limit.** -/
theorem parseScript_afterLimit {s : Script} (parsed : r.parseScript source c = .ok s) :
    ∃ judged, r.judgements source c = .ok judged ∧ judged.map Judgement.row = rowsOf source ∧
      ∀ k n row, IsRow source k n row → ∃ o d verdict d' later, judged[n]? = some { row, verdict } ∧
        Ends (r.comeTo source k row) c o d ∧ Ends (r.judgeHere o row) d verdict d' ∧
        s.diagnostics = d'.diagnostics ++ later ∧
        ((∃ a ∈ attemptsOn r o row d, RunsIntoLimit a) →
          ∃ reported, d'.diagnostics = d.diagnostics ++ reported ∧
            AfterLimit r row (blocksAround (rowsOf source) n = []) (attemptsOn r o row d) verdict reported) := by
  obtain ⟨judged, judges, rows, all⟩ := parseScript_row parsed
  refine ⟨judged, judges, rows, fun k n row isRow => ?_⟩
  obtain ⟨o, d, verdict, d', blocks, later, here, came, ends, line, column, opened, reported⟩ := all k n row isRow
  refine ⟨o, d, verdict, d', later, here, came, ends, reported, fun limited => ?_⟩
  have indent : indentAt (judged.map Judgement.row) n = row.indent := by
    rw [rows, indentAt, isRow.getElem?_rowsOf]
    rfl
  have atMargin := opened.isAtMargin_iff indent
  rw [rows] at atMargin
  rw [← atMargin]
  unfold attemptsOn at limited ⊢
  unfold judgeHere at ends
  cases fits : o.expected? row.indent with
  | some expected => simp [fits] at limited
  | none =>
    rw [fits] at ends limited
    cases trying : row.trying? r (o.moved row.indent).isAtMargin with
    | none => simp [trying] at limited
    | some t =>
      rw [trying] at limited
      exact judgeText_afterLimit line column trying ends limited

/-- A vocabulary in which sums are read. -/
def additions : List Entry :=
  [.type { name := "number", plural := "numbers", literal := some fun s =>
      if s == "1" then some (.int 1) else none },
    .definition { category := .event, patterns := ["on %number%"] },
    .definition { category := .sectionHead, patterns := ["on <.+>"] },
    .definition { category := .effect, patterns := ["print %number%"] },
    .definition { category := .condition, patterns := ["%number% is %number%"] },
    .definition { category := .expression, patterns := ["%number% + %number%"], returns := some "number" }]

/-- A script in which a sum is read in three ways. One level of recursion is enough for none of them. -/
def additionSource : String :=
  "print 1 + 1\n1 + 1 is 1\non 1 + 1:\n  print 1"

/-- The limit is fatal to the effect, but the condition is turned down for being no effect, and what is no event
within the limit is accepted as a section. -/
theorem parseScript_afterLimit_additions :
    let r := ((RegistryBuilder.withConfig { allowTopLevel := true }).addAll additions).1.build
    let c : Context := { maxDepth := 1 }
    ∃ s, r.parseScript additionSource c = .ok s ∧
      s.diagnostics.map (fun d => (d.line, d.code)) = [(1, .recursionLimit), (2, .noMatch)] ∧
      ∀ n row, (rowsOf additionSource)[n]? = some row → n < 3 → ∃ o d verdict d' reported,
        Ends (r.comeTo additionSource n row) c o d ∧ Ends (r.judgeHere o row) d verdict d' ∧
        d'.diagnostics = d.diagnostics ++ reported ∧
        AfterLimit r row (blocksAround (rowsOf additionSource) n = []) (attemptsOn r o row d) verdict reported := by
  intro r c
  have codes : (r.parseScript additionSource c).toOption.map
      (fun s => s.diagnostics.map fun d => (d.line, d.code)) = some [(1, .recursionLimit), (2, .noMatch)] := by
    decide +kernel
  have rows : rowsOf additionSource = [⟨1, 0, 1, "print 1 + 1".toList⟩, ⟨2, 0, 1, "1 + 1 is 1".toList⟩,
      ⟨3, 0, 1, "on 1 + 1:".toList⟩, ⟨4, 2, 3, "print 1".toList⟩] := by decide +kernel
  cases parsed : r.parseScript additionSource c with
  | error cause =>
    rw [parsed] at codes
    cases codes
  | ok s =>
    rw [parsed] at codes
    obtain ⟨judged, -, -, all⟩ := parseScript_afterLimit parsed
    have atRow {n : Nat} {row : Row} (isRow : IsRow additionSource n n row)
        (limited : ((r.comeTo additionSource n row c).1.toOption.any fun o =>
          decide (∃ a ∈ attemptsOn r o row (r.comeTo additionSource n row c).2, RunsIntoLimit a)) = true) :
        ∃ o d verdict d' reported,
        Ends (r.comeTo additionSource n row) c o d ∧ Ends (r.judgeHere o row) d verdict d' ∧
        d'.diagnostics = d.diagnostics ++ reported ∧
        AfterLimit r row (blocksAround (rowsOf additionSource) n = []) (attemptsOn r o row d) verdict reported := by
      obtain ⟨o, d, verdict, d', later, -, came, ends, -, law⟩ := all n n row isRow
      rw [show r.comeTo additionSource n row c = (.ok o, d) from came] at limited
      obtain ⟨reported, adds, after⟩ := law (of_decide_eq_true limited)
      exact ⟨o, d, verdict, d', reported, came, ends, adds, after⟩
    refine ⟨s, rfl, Option.some.inj codes, fun n row here few => ?_⟩
    rw [rows] at here
    rcases n with _ | _ | _ | n
    · cases here
      exact atRow ⟨⟨"print 1 + 1".toList, by decide +kernel, by decide +kernel⟩, by decide +kernel⟩
        (by decide +kernel)
    · cases here
      exact atRow ⟨⟨"1 + 1 is 1".toList, by decide +kernel, by decide +kernel⟩, by decide +kernel⟩
        (by decide +kernel)
    · cases here
      exact atRow ⟨⟨"on 1 + 1:".toList, by decide +kernel, by decide +kernel⟩, by decide +kernel⟩
        (by decide +kernel)
    · omega

end Phrasebook.Registry
