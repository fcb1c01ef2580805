import Phrasebook.Proofs.Script.Positions

/-!
# The places that diagnostics name

Where definitions report nothing themselves, a script is reported on at the starts of its rows and at the local
variables that a row reads though they are not set. So every diagnostic names a character of the source that is no
blank. Its line is the number of the line in which the character stands, and its column counts the bytes before
it there, but for the doubled number signs among them. Main statement: `parseScript_marks`.
-/

namespace Phrasebook
open Text Parse

section Reads

mutual

/-- What an expression reads is a local variable somewhere within it. -/
theorem Expr.exists_var : (e : Expr) → ∀ read ∈ e.localReads,
    ∃ type, Part.Within (.expr (.var read.2 true type read.1)) (.expr e)
  | .literal value type span => by
    intro read mem
    rw [Expr.localReads] at mem
    cases mem
  | .list items conjunction type span => by
    intro read mem
    rw [Expr.localReads] at mem
    obtain ⟨e, among, type, within⟩ := exists_var_of_items items read mem
    exact ⟨type, .item among within⟩
  | .var name isLocal type span => by
    intro read mem
    rw [Expr.localReads] at mem
    cases isLocal with
    | false => cases mem
    | true =>
      obtain rfl := List.mem_singleton.1 mem
      exact ⟨type, .self _⟩
  | .node n type span => by
    intro read mem
    rw [Expr.localReads] at mem
    obtain ⟨type, within⟩ := Node.exists_var n read mem
    exact ⟨type, .node within⟩
  | .converted inner path type span => by
    intro read mem
    rw [Expr.localReads] at mem
    obtain ⟨type, within⟩ := Expr.exists_var inner read mem
    exact ⟨type, .inner within⟩

theorem exists_var_of_items : (items : List Expr) → ∀ read ∈ readsOfItems items,
    ∃ e ∈ items, ∃ type, Part.Within (.expr (.var read.2 true type read.1)) (.expr e)
  | [] => nofun
  | e :: rest => by
    intro read mem
    rw [readsOfItems] at mem
    rcases List.mem_append.1 mem with mem | mem
    · obtain ⟨type, within⟩ := Expr.exists_var e read mem
      exact ⟨e, List.mem_cons_self, type, within⟩
    · obtain ⟨e', among, found⟩ := exists_var_of_items rest read mem
      exact ⟨e', List.mem_cons_of_mem e among, found⟩

/-- What a node reads is a local variable somewhere within it. -/
theorem Node.exists_var : (n : Node) → ∀ read ∈ n.localReads,
    ∃ type, Part.Within (.expr (.var read.2 true type read.1)) (.node n)
  | ⟨category, definition, name, patternIndex, mark, span, arguments, returns, captures, tags⟩ => by
    intro read mem
    rw [Node.localReads] at mem
    obtain ⟨e, among, type, within⟩ := exists_var_of_arguments arguments read mem
    exact ⟨type, .argument among within⟩

theorem exists_var_of_arguments : (arguments : List (Option Expr)) → ∀ read ∈ readsOfArguments arguments,
    ∃ e, some e ∈ arguments ∧ ∃ type, Part.Within (.expr (.var read.2 true type read.1)) (.expr e)
  | [] => nofun
  | none :: rest => by
    intro read mem
    rw [readsOfArguments] at mem
    obtain ⟨e, among, found⟩ := exists_var_of_arguments rest read mem
    exact ⟨e, List.mem_cons_of_mem _ among, found⟩
  | some e :: rest => by
    intro read mem
    rw [readsOfArguments] at mem
    rcases List.mem_append.1 mem with mem | mem
    · obtain ⟨type, within⟩ := Expr.exists_var e read mem
      exact ⟨e, List.mem_cons_self, type, within⟩
    · obtain ⟨e', among, found⟩ := exists_var_of_arguments rest read mem
      exact ⟨e', List.mem_cons_of_mem _ among, found⟩

end

end Reads

/-- A decision reports nothing, and has no text parsed. -/
def Action.IsSilent (action : Action) : Prop :=
  action.ParsesNothing ∧ action.Reports fun _ => False

section Silent

/-- Carrying out a silent decision reports nothing. -/
theorem Action.IsSilent.diagnostics {action : Action} (silent : action.IsSilent) (r : Registry) (read : Reader)
    (c : Context) : (carryOut r read action c).2.diagnostics = c.diagnostics := by
  obtain ⟨quiet, none⟩ := silent
  induction action generalizing c with
  | accept | reject => rfl
  | look next ih => exact ih (r.view c) c (quiet (r.view c)) (none (r.view c))
  | edit change next ih =>
    have nothing : change.report? = .none := Option.eq_none_iff_forall_ne_some.2 none.1
    have later := ih (change.apply c) quiet none.2
    rw [Context.diagnostics_apply, nothing, Option.toList_none, List.append_nil] at later
    exact later
  | parse => exact quiet.elim

/-- Where all decisions are silent, a line that is parsed reports the local variables of its node that are not set,
and nothing else. -/
theorem parseLine_silent {r : Registry}
    (silent : ∀ category, ∀ x ∈ r.candidates category, ∀ node, (x.definition.decide node).IsSilent)
    {category : Category} {text : String} {c c' : Context} {node : Node}
    (parsed : r.parseLine category text c = (.ok node, c')) :
    c'.diagnostics = c.diagnostics ++ unsetWarnings r node.localReads c' := by
  obtain ⟨⟨inner, root, left, -, -⟩, -⟩ := parseLine_left parsed
  have nothing : ((inner ++ [root]).flatMap Acceptance.changes).filterMap Edit.report? = [] := by
    rw [List.filterMap_flatMap, List.flatMap_eq_nil_iff]
    intro a mem
    have genuine := left.genuine a mem
    obtain ⟨category, among⟩ := genuine.registered
    obtain ⟨levels, d, d', -, leaves, decided⟩ := genuine.decided
    have same := (silent category a.candidate among a.matched).diagnostics r (r.reader levels) d
    rw [decided] at same
    have grown := leaves.diagnostics
    rw [Context.diagnostics_edited, same] at grown
    exact List.self_eq_append_right.1 grown
  rw [left.diagnostics, nothing, List.append_nil]

end Silent

namespace Script

/-- A diagnostic names a character of a source that is no blank: the one that stands in a line behind a text that is
written there. The column counts the bytes of what is left of the text. -/
structure Marks (source : String) (d : Diagnostic) (k : Nat) (line written : List Char) : Prop where
  there : (lines source.toList)[k]? = some line
  first : ∃ first, isBlank first = false ∧ written ++ [first] <+: line
  number : d.line = min greatestPosition (k + 1)
  column : d.column = min greatestPosition (String.utf8Len (stripComment written) + 1)
  bytes : String.utf8Len written = String.utf8Len (stripComment written) + lostSigns written

/-- What a row reports about itself: something at its start, or what a line has reported that was parsed of its
text. -/
inductive RowReport (r : Registry) (row : Row) : List Diagnostic → Prop where
  | start {d : Diagnostic} (line : d.line = row.start.line) (column : d.column = row.start.column) :
    RowReport r row [d]
  | parsed {category : Category} {text : String} {node : Node} {c c' : Context} {added : List Diagnostic}
    (starts : text.toList <+: row.text) (line : c.line = row.number) (column : c.column = row.column)
    (parsed : r.parseLine category text c = (.ok node, c')) (reported : c'.diagnostics = c.diagnostics ++ added) :
    RowReport r row added

section Rows

variable {r : Registry} {row : Row} {c c' : Context}

/-- A row whose indentation fits reports something at its start, or what is reported for a line of its text. -/
theorem judgeText_report {o : Outline} {verdict : Verdict} (line : c.line = row.number) (column : c.column = row.column)
    (ends : Ends (judgeText r o row) c verdict c') : ∃ added, RowReport r row added ∧ Adds c added c' := by
  cases trying : row.trying? r o.isAtMargin with
  | none =>
    obtain ⟨stop, adds⟩ := Adds.of_reportLine (judgeText_untried trying ends).2
    rw [line, column] at adds
    exact ⟨_, .start rfl rfl, adds⟩
  | some t =>
    obtain ⟨decided, accepted⟩ := t.read_attempts (judgeText_eq_read trying ends)
    cases understood : verdict.node? with
    | none =>
      rw [understood] at decided
      generalize t.attempts r c = attempts at decided
      cases decided with
      | refused _ adds =>
        rw [line, column] at adds
        exact ⟨_, .start rfl rfl, adds⟩
    | some node =>
      obtain ⟨category, d, adds, parsed⟩ := accepted node understood
      obtain ⟨added, reported, -, -, setting⟩ := parseLine_within (Bounds.permits_candidates r d.line) rfl parsed
      have line' : c'.line = d.line := Context.line_of_setting setting rfl
      have column' : c'.setting.column = d.setting.column := by rw [setting]
      refine ⟨added, .parsed (text_of_trying? trying) (adds.line.trans line) (adds.column.trans column) parsed
        reported, ?_⟩
      exact adds.trans ⟨line', column', reported⟩

/-- A row reports the blocks that end before it, and then something about itself. -/
theorem judge_report {o : Outline} {verdict : Verdict} (ends : Ends (judge r o row) c verdict c') :
    ∃ added, RowReport r row added ∧ c'.diagnostics = c.diagnostics ++ (o.warnings row.indent ++ added) := by
  have left := o.adds_leave row.indent { c with line := row.number, column := row.column }
  have judged : ∃ added, RowReport r row added ∧
      Adds (o.leave row.indent { c with line := row.number, column := row.column }) added c' := by
    cases judgedRow_of_ends ends with
    | misplaced _ reported =>
      obtain ⟨stop, adds⟩ := Adds.of_reportLine reported
      rw [left.line, left.column] at adds
      exact ⟨_, .start rfl rfl, adds⟩
    | text _ ends => exact judgeText_report left.line left.column ends
  obtain ⟨added, report, adds⟩ := judged
  exact ⟨added, report, (left.trans adds).diagnostics⟩

end Rows

section Marks

variable {source : String} {k : Nat} {line : List Char} {row : Row}

/-- A row is not empty. -/
theorem Row.text_ne_nil {index : Nat} (h : Row.ofLine? line index = some row) : row.text ≠ [] := by
  unfold Row.ofLine? at h
  dsimp only at h
  split at h
  · cases h
  next some_ =>
    cases h
    exact fun none => some_ (List.isEmpty_iff.2 none)

/-- What names the start of a row names the first character in its line that is no blank. -/
theorem exists_marks_start (there : (lines source.toList)[k]? = some line) (placed : Row.ofLine? line k = some row)
    {d : Diagnostic} (number : d.line = row.start.line) (column : d.column = row.start.column) :
    ∃ written, Marks source d k line written := by
  obtain ⟨blanks, blank, left, solid, margin⟩ := Row.of_ofLine? placed
  obtain ⟨first, text, shape⟩ := List.exists_cons_of_ne_nil (Row.text_ne_nil placed)
  rw [shape] at left solid
  have whole : blanks ++ [first] <+: stripComment line := by
    refine List.IsPrefix.trans ?_ left
    exact (List.prefix_append_right_inj blanks).2 (List.prefix_append [first] text)
  obtain ⟨written, ahead, isLeft⟩ := exists_written whole
  have strips : stripComment written = blanks := isLeft.strips
  refine ⟨written, there, ⟨first, solid first rfl, ahead⟩, ?_, ?_, ?_⟩
  · rw [number, ← number_of_ofLine? placed]
    rfl
  · rw [column, strips]
    show min greatestPosition (row.column + min greatestPosition 0) = _
    rw [margin]
    omega
  · rw [strips]
    exact isLeft.lost

/-- What names a part of a tree that was read of a row names the character that the part starts with. -/
theorem StandsBehind.marks {written : List Char} {x : Part} (h : StandsBehind line row written x)
    (there : (lines source.toList)[k]? = some line) (placed : Row.ofLine? line k = some row) {d : Diagnostic}
    (number : d.line = x.span.line) (column : d.column = x.span.column) : Marks source d k line written := by
  obtain ⟨first, solid, ahead, -⟩ := h.first
  refine ⟨there, ⟨first, solid, ahead⟩, ?_, column.trans h.column, h.bytes⟩
  rw [number, h.line, number_of_ofLine? placed]

end Marks

end Script

section Builder

open Script

variable {b : RegistryBuilder} (reachable : b.Reachable) (keeps : ∀ d ∈ b.definitions, KeepsMatches d.decide)
  (silent : ∀ d ∈ b.definitions, ∀ node, (d.decide node).IsSilent) {source : String}

include reachable keeps silent

/-- All that a row reports about itself names characters of its line. -/
theorem Script.RowReport.marks {row : Row} {added : List Diagnostic} (report : RowReport b.build row added) {k : Nat}
    {line : List Char} (there : (lines source.toList)[k]? = some line) (placed : Row.ofLine? line k = some row) :
    ∀ d ∈ added, ∃ written, Marks source d k line written := by
  cases report with
  | start number column => exact List.forall_mem_singleton.2 (exists_marks_start there placed number column)
  | @parsed category text node c c' _ starts number column parsed reported =>
    have silentAll (category : Category) (x : Candidate) (mem : x ∈ b.build.candidates category) (node : Node) :
        (x.definition.decide node).IsSilent :=
      silent _ (List.mem_of_getElem? (reachable.lawful category x mem).definition) node
    obtain rfl : added = unsetWarnings b.build node.localReads c' :=
      List.append_cancel_left (reported.symm.trans (parseLine_silent silentAll parsed))
    intro d mem
    unfold unsetWarnings at mem
    split at mem
    · obtain ⟨read, among, rfl⟩ := List.mem_map.1 mem
      obtain ⟨type, within⟩ := Node.exists_var node read (List.mem_filter.1 among).1
      obtain ⟨stands, locates⟩ := parseLine_located reachable keeps parsed _ within
      obtain ⟨written, behind⟩ := exists_standsBehind placed starts number column stands locates
      exact ⟨written, behind.marks there placed rfl rfl⟩
    · cases mem

/-- **What is reported for a script names characters of its source**, if no definition reports anything itself. -/
theorem parseScript_marks {c : Context} {s : Script} (clean : c.diagnostics = [])
    (parsed : b.build.parseScript source c = .ok s) :
    ∀ d ∈ s.diagnostics, ∃ k line written, Marks source d k line written := by
  obtain ⟨judged, o, c', judges, rows, run, -, all⟩ := Registry.parseScript_run parsed
  have place (j : Judgement) (among : j ∈ judged) :
      ∃ k line, (lines source.toList)[k]? = some line ∧ Row.ofLine? line k = some j.row := by
    obtain ⟨n, found⟩ := List.mem_iff_getElem?.1 (List.mem_map_of_mem (f := Judgement.row) among)
    rw [rows] at found
    obtain ⟨k, isRow⟩ := exists_isRow found
    obtain ⟨line, there, placed⟩ := isRow.line
    exact ⟨k, line, there, placed⟩
  have warned {n : Nat} {o : Outline} {blocks : List Nat} (opened : OpenAt judged n o blocks) (indent : Nat) :
      ∀ d ∈ o.warnings indent, ∃ k line written, Marks source d k line written := by
    intro d mem
    obtain ⟨-, n, j, -, here, number, column⟩ := opened.warnings mem
    obtain ⟨k, line, there, placed⟩ := place j (List.mem_of_getElem? here)
    exact ⟨k, line, exists_marks_start there placed number column⟩
  have marked : (∃ blocks, OpenAt judged judged.length o blocks) ∧
      ∀ d ∈ c'.diagnostics, ∃ k line written, Marks source d k line written := by
    refine run.invariant (I := fun n o c => (∃ blocks, OpenAt judged n o blocks) ∧
      ∀ d ∈ c.diagnostics, ∃ k line written, Marks source d k line written) (fun _ _ _ holds => holds) ?_
      ⟨⟨[], openAt_zero judged⟩, by rw [clean]; exact List.forall_mem_nil _⟩
    rintro n row verdict here o c₀ c₁ o₁ c₂ ⟨⟨blocks, opened⟩, before⟩ judges settles
    obtain ⟨-, -, -, after, -⟩ := opened.read (b := Bounds.none) (fun _ => rfl)
      (fun _ _ _ _ _ _ _ => Bounds.within_none _ _) here judges settles
    obtain ⟨-, -, -, atRow, atColumn, -⟩ := judge_ends (Bounds.permits_candidates b.build row.number) rfl judges
    obtain ⟨added, report, reported⟩ := judge_report judges
    have grown := (settle_ends atRow atColumn settles).2.diagnostics
    rw [List.append_nil, reported] at grown
    obtain ⟨k, line, there, placed⟩ := place _ (List.mem_of_getElem? here)
    refine ⟨⟨_, after⟩, ?_⟩
    rw [grown, List.forall_mem_append, List.forall_mem_append]
    refine ⟨before, warned opened row.indent, fun d mem => ⟨k, line, ?_⟩⟩
    exact report.marks reachable keeps silent there placed d mem
  obtain ⟨⟨blocks, opened⟩, before⟩ := marked
  rw [all, (o.adds_leave 0 c').diagnostics, List.forall_mem_append]
  exact ⟨before, warned opened 0⟩

end Builder

end Phrasebook
