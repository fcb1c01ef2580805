import Phrasebook.Proofs.Script.OpenBlocks
import Phrasebook.Proofs.Vocabulary

/-!
# Blocks are what the indentation says

The statements that are complete and those in the open blocks are at every moment what the indentation of the
rows makes of them (`Contents`), so the statements of a script are in the end (`parseScript_nesting`). A block
that ends becomes a statement in the block around it if its header was accepted, and is dropped else.
-/

namespace Phrasebook.Script
open Parse

/-- The blocks that are open, with the statements in them that are complete: in each those of the rows before
the header of the next one, and in the innermost those of all rows so far. -/
def Contents (judged : List Judgement) :
    Nat → List Nat → List OpenBlock → List Statement → Prop
  | n, [], [], statements => Nested judged none n statements
  | n, i :: outer, b :: rest, statements =>
    Nested judged (some i) n b.children ∧ Contents judged i outer rest statements
  | _, _, _, _ => False

/-- The next of some blocks is the innermost around each of them. -/
def Linked (rows : List Row) : List Nat → Prop
  | [] => True
  | i :: outer => ParentIs rows outer.head? i ∧ Linked rows outer

variable {judged : List Judgement} {n : Nat} {o : Outline} {blocks : List Nat}

/-- The blocks of a list that has all blocks around each of them are linked. -/
theorem linked_of_complete {rows : List Row} {blocks : List Nat}
    (around : blocks.Pairwise fun i j => Around rows j i) (each : ∀ i ∈ blocks, IsBlock rows i)
    (complete : ∀ i ∈ blocks, ∀ j, IsBlock rows j → Around rows j i → j ∈ blocks) :
    Linked rows blocks := by
  induction blocks with
  | nil => trivial
  | cons i outer ih =>
    obtain ⟨first, later⟩ := List.pairwise_cons.1 around
    -- what is around a block comes before it, so it is further outside
    have further {j k : Nat} (mem : j ∈ i :: outer) (lt : j < k) (below : k ≤ i) : j ∈ outer := by
      rcases List.mem_cons.1 mem with rfl | mem
      · omega
      · exact mem
    refine ⟨?_, ih later (fun j mem => each j (List.mem_cons_of_mem i mem)) fun j mem k block within => ?_⟩
    · refine parentIs_head? (later.imp fun within => within.lt) fun j => ⟨fun mem => ?_, ?_⟩
      · exact ⟨each j (List.mem_cons_of_mem i mem), first j mem⟩
      · rintro ⟨block, within⟩
        exact further (complete i List.mem_cons_self j block within) within.lt (Nat.le_refl i)
    · have lt := (first j mem).lt
      exact further (complete j (List.mem_cons_of_mem i mem) k block within) within.lt
        (Nat.le_of_lt lt)

theorem OpenAt.linked (h : OpenAt judged n o blocks) : Linked (judged.map Judgement.row) blocks := by
  refine linked_of_complete ?_ (fun i mem => ((h.mem i).1 mem).1) fun i mem j block around => ?_
  · refine h.sorted.imp_of_mem fun {i j} within outer lt => ?_
    exact ((h.mem j).1 outer).2.around lt (h.lt within)
  · exact (h.mem j).2 ⟨block, around.clear ((h.mem i).1 mem).2⟩

/-- **A block that has ended is one more statement of the block around it** if its header was accepted, and
nothing else has come to that block meanwhile. -/
theorem Nested.close {parent : Option Nat} {i : Nat} {statements : List Statement} {b : OpenBlock}
    (before : Nested judged parent i statements)
    (outer : ParentIs (judged.map Judgement.row) parent i)
    (block : IsBlock (judged.map Judgement.row) i) (clear : Clear (judged.map Judgement.row) i n)
    (header : b.header = nodeAt judged i) (inside : Nested judged (some i) n b.children)
    (ended : ∀ j, n ≤ j → ¬ Around (judged.map Judgement.row) i j) (le : n ≤ judged.length) :
    Nested judged parent n (statements ++ b.statement?.toList) := by
  have whole : Nested judged (some i) judged.length b.children :=
    inside.extend le fun j after _ within => ended j after within.2.1
  have lt := clear.1
  -- a row of the block has the header for its parent, or a block within
  have others (j : Nat) (after : i + 1 ≤ j) (below : j < n) :
      ¬ ParentIs (judged.map Judgement.row) parent j := by
    have around : Around (judged.map Judgement.row) i j := clear.around after below
    cases parent with
    | none => exact fun within => within i block around
    | some p =>
      intro within
      have inner : i ≤ p := within.2.2 i block around
      have outside : p < i := outer.2.1.lt
      omega
  unfold OpenBlock.statement?
  rw [header]
  cases accepted : nodeAt judged i with
  | none =>
    have skipped := before.skip fun _ => accepted
    rw [Option.map_none, Option.toList_none, List.append_nil]
    exact skipped.extend lt others
  | some node => exact (before.row outer accepted whole).extend lt others

/-- The contents, but for some statements that have not come to the innermost block yet. -/
def Pending (judged : List Judgement) (n : Nat) (blocks : List Nat) (statements closed : List Statement) :
    List OpenBlock → Prop
  | [] => Contents judged n blocks [] (statements ++ closed)
  | b :: rest =>
    Contents judged n blocks ({ b with children := b.children ++ closed } :: rest) statements

/-- Closing blocks keeps the contents. -/
theorem contents_closeBlocks {indent : Nat} {open_ : List OpenBlock} {statements closed : List Statement}
    (le : n ≤ judged.length) (frames : open_.map OpenBlock.frame = blocks.map (blockAt judged n))
    (linked : Linked (judged.map Judgement.row) blocks)
    (clear : ∀ i ∈ blocks,
      IsBlock (judged.map Judgement.row) i ∧ Clear (judged.map Judgement.row) i n)
    (ended : ∀ i ∈ blocks, indent ≤ indentAt (judged.map Judgement.row) i →
      ∀ j, n ≤ j → ¬ Around (judged.map Judgement.row) i j)
    (contents : Pending judged n blocks statements closed open_) :
    Contents judged n
      (blocks.dropWhile fun i => indent ≤ indentAt (judged.map Judgement.row) i)
      (closeBlocks indent open_ closed).1 (statements ++ (closeBlocks indent open_ closed).2) := by
  induction blocks generalizing open_ closed with
  | nil =>
    cases List.map_eq_nil_iff.1 frames
    exact contents
  | cons i outer ih =>
    obtain ⟨b, rest, rfl, same, others⟩ := List.map_eq_cons_iff.1 frames
    have level : b.indent = indentAt (judged.map Judgement.row) i := congrArg OpenBlock.indent same
    have header : b.header = nodeAt judged i := congrArg OpenBlock.header same
    obtain ⟨inside, around⟩ := contents
    obtain ⟨parent, linked⟩ := linked
    rw [closeBlocks]
    by_cases outside : indent ≤ indentAt (judged.map Judgement.row) i
    · have goes : { b with children := b.children ++ closed }.isOutside indent = true := by
        show decide (indent ≤ b.indent) = true
        rw [level]
        exact decide_eq_true outside
      rw [if_pos goes, List.dropWhile_cons, if_pos (decide_eq_true outside)]
      have here := clear i List.mem_cons_self
      have closing {parent : Option Nat} {before : List Statement}
          (nested : Nested judged parent i before)
          (outer : ParentIs (judged.map Judgement.row) parent i) :
          Nested judged parent n
            (before ++ { b with children := b.children ++ closed }.statement?.toList) :=
        nested.close outer here.1 here.2 header inside (ended i List.mem_cons_self outside) le
      refine ih others linked (fun j mem => clear j (List.mem_cons_of_mem i mem))
        (fun j mem => ended j (List.mem_cons_of_mem i mem)) ?_
      cases outer with
      | nil =>
        cases List.map_eq_nil_iff.1 others
        exact closing around parent
      | cons j outer =>
        obtain ⟨b', rest, rfl, -, -⟩ := List.map_eq_cons_iff.1 others
        exact ⟨closing around.1 parent, around.2⟩
    · have stays : ¬ { b with children := b.children ++ closed }.isOutside indent = true := by
        show ¬ decide (indent ≤ b.indent) = true
        rw [level]
        simpa using outside
      rw [if_neg stays, List.dropWhile_cons, if_neg (by simpa using outside), List.append_nil]
      exact ⟨inside, around⟩

/-- Closing the blocks that a row falls outside of keeps the contents. -/
theorem OpenAt.contents_close (h : OpenAt judged n o blocks) (le : n ≤ judged.length)
    (contents : Contents judged n blocks o.blocks o.statements) :
    Contents judged n (goingOn judged n blocks)
      (o.close (indentAt (judged.map Judgement.row) n)).blocks
      (o.close (indentAt (judged.map Judgement.row) n)).statements := by
  rw [h.goingOn_eq]
  refine contents_closeBlocks le h.frames h.linked (fun i mem => (h.mem i).1 mem)
    (fun i mem outside j => not_around_of_le (h.lt mem) outside) ?_
  generalize o.blocks = open_ at contents
  cases open_ with
  | nil =>
    rw [Pending, List.append_nil]
    exact contents
  | cons b rest =>
    rw [Pending, List.append_nil]
    exact contents

/-- The indentation of the lines of a block does not matter for its contents. -/
theorem contents_indentLine {indent : Nat}
    (contents : Contents judged n blocks o.blocks o.statements) :
    Contents judged n blocks (o.indentLine indent).1.blocks (o.indentLine indent).1.statements := by
  unfold Outline.indentLine
  split
  next margin => exact contents
  next b rest found =>
    rw [found] at contents
    split
    · cases blocks with
      | nil => exact contents
      | cons i outer => exact contents
    · dsimp only
      rw [found]
      exact contents

/-- A row without a node adds nothing. -/
theorem Contents.skip {open_ : List OpenBlock} {statements : List Statement}
    (h : Contents judged n blocks open_ statements) (rejected : nodeAt judged n = none) :
    Contents judged (n + 1) blocks open_ statements := by
  cases blocks with
  | nil =>
    cases open_ with
    | nil => exact Nested.skip h fun _ => rejected
    | cons => exact h
  | cons i outer =>
    cases open_ with
    | nil => exact h
    | cons b rest => exact ⟨h.1.skip fun _ => rejected, h.2⟩

/-- A row that opens no block has no rows in it. -/
theorem nested_of_not_isBlock (noBlock : ¬ IsBlock (judged.map Judgement.row) n) (m : Nat) :
    Nested judged (some n) m [] :=
  nested_nil fun _ _ within => noBlock within.1

/-- A row that was accepted is one more statement in the innermost block. -/
theorem Contents.add (h : Contents judged n blocks o.blocks o.statements) {node : Node}
    (parent : ParentIs (judged.map Judgement.row) blocks.head? n)
    (accepted : nodeAt judged n = some node) (noBlock : ¬ IsBlock (judged.map Judgement.row) n) :
    Contents judged (n + 1) blocks (o.add ⟨node, []⟩).blocks (o.add ⟨node, []⟩).statements := by
  have empty := nested_of_not_isBlock noBlock judged.length
  unfold Outline.add
  cases found : o.blocks with
  | nil =>
    rw [found] at h
    cases blocks with
    | nil => exact Nested.row h parent accepted empty
    | cons i outer => exact h.elim
  | cons b rest =>
    rw [found] at h
    cases blocks with
    | nil => exact h.elim
    | cons i outer => exact ⟨h.1.row parent accepted empty, h.2⟩

/-- **Every row keeps the contents what the indentation says.** -/
theorem RowRead.contents {bounds : Nat → Bounds} {row : Row} {verdict : Verdict}
    {added : List Diagnostic} (h : RowRead bounds judged n blocks o row verdict added)
    (contents : Contents judged n blocks o.blocks o.statements) :
    Contents judged (n + 1) (blocksAfter n (goingOn judged n blocks) verdict)
      ((o.moved row.indent).settled row verdict).blocks
      ((o.moved row.indent).settled row verdict).statements := by
  have below : n < judged.length := (List.getElem?_eq_some_iff.1 h.here).1
  have indent : indentAt (judged.map Judgement.row) n = row.indent := by
    rw [indentAt, List.getElem?_map, h.here]
    rfl
  have closed := h.opened.contents_close (Nat.le_of_lt below) contents
  rw [indent] at closed
  have moved : Contents judged n (goingOn judged n blocks) (o.moved row.indent).blocks
      (o.moved row.indent).statements := contents_indentLine closed
  have parent := parentIs_head? h.stands.sorted h.stands.mem
  have node : nodeAt judged n = verdict.node? := by rw [nodeAt, h.here, Option.bind_some]
  cases fits : h.fits with
  | misplaced => exact moved.skip node
  | stray => exact moved.skip node
  | @statement node? _ noHeader =>
    cases node? with
    | none => exact moved.skip node
    | some accepted => exact moved.add parent node fun block => noHeader block.1
  | header block =>
    refine ⟨nested_nil fun j before within => ?_, moved⟩
    have after := within.2.1.lt
    omega

/-- At the end of a script all that is open becomes part of the statements at the margin. -/
theorem OpenAt.nested (h : OpenAt judged judged.length o blocks)
    (contents : Contents judged judged.length blocks o.blocks o.statements) :
    Nested judged none judged.length (o.close 0).statements := by
  have closed := h.contents_close (Nat.le_refl _) contents
  rw [indentAt_length, goingOn_length] at closed
  generalize (o.close 0).blocks = open_ at closed
  cases open_ with
  | nil => exact closed
  | cons => exact closed.elim

section Errors

/-- A diagnostic says that an indentation was not expected. -/
def isIndentationError (d : Diagnostic) : Bool :=
  d.isError && d.code == .structural && "indentation error: ".toList.isPrefixOf d.message.toList

/-- The error of a row that is misplaced. -/
def Judgement.misplacedError? (j : Judgement) : Option Diagnostic :=
  match j.verdict with
  | .misplaced expected => some (j.row.misplacedError expected j.row.start)
  | .stray | .header _ | .statement _ => none

theorem isIndentationError_misplacedError (row : Row) (expected : Nat) (span : Span) :
    isIndentationError (row.misplacedError expected span) = true := by
  have message : "indentation error: ".toList <+: (row.misplacedError expected span).message.toList := by
    unfold Row.misplacedError
    simp only [Diagnostic.error, Diagnostic.atSpan, String.toList_append, List.append_assoc]
    exact ⟨"expected ".toList ++ _, by rw [← List.append_assoc]; rfl⟩
  unfold isIndentationError
  rw [List.isPrefixOf_iff_prefix.2 message]
  rfl

theorem isIndentationError_strayError (span : Span) : isIndentationError (strayError span) = false := by
  have other : "indentation error: ".toList.isPrefixOf
      "statements must be placed inside a trigger".toList = false := by decide
  show (_ && "indentation error: ".toList.isPrefixOf _) = false
  rw [Bool.and_eq_false_iff]
  exact .inr other

/-- A fault of a line is no matter of structure. -/
theorem isIndentationError_ofFault (span : Span) (fault : Fault) :
    isIndentationError (.ofFault span fault) = false := by
  have other : (Code.ofCause fault.cause == .structural) = false := by
    cases fault.cause <;> rfl
  show (_ && Code.ofCause fault.cause == .structural && _) = false
  rw [other, Bool.and_false, Bool.false_and]

theorem not_isIndentationError_warning {d : Diagnostic} (warning : d.severity = .warning) :
    ¬ isIndentationError d := by
  unfold isIndentationError Diagnostic.isError
  rw [warning]
  exact Bool.false_ne_true

/-- What explains a verdict contains the error of a row that is misplaced. -/
theorem Explains.misplacedError_sublist {b : Bounds} {row : Row} {verdict : Verdict}
    {added : List Diagnostic} (h : Explains b row verdict added) :
    (Judgement.mk row verdict).misplacedError?.toList.Sublist added := by
  cases h with
  | misplaced => exact .refl _
  | stray => exact List.nil_sublist _
  | header => exact List.nil_sublist _
  | statement => exact List.nil_sublist _

/-- What explains a verdict contains no other error about an indentation, unless a decision reports one. -/
theorem Explains.filter_isIndentationError {b : Bounds} {row : Row} {verdict : Verdict}
    {added : List Diagnostic} (h : Explains b row verdict added)
    (others : ∀ d, b.Reports d → ¬ isIndentationError d) :
    added.filter isIndentationError = (Judgement.mk row verdict).misplacedError?.toList := by
  have understood {node? : Option Node} (h : Understands b node? added) :
      added.filter isIndentationError = [] := by
    refine List.filter_eq_nil_iff.2 fun d mem => ?_
    cases node? with
    | none =>
      obtain ⟨span, fault, -, rfl⟩ := h
      rw [List.mem_singleton.1 mem, isIndentationError_ofFault span fault]
      exact Bool.false_ne_true
    | some node => exact others d (h.2 d mem)
  cases h with
  | misplaced =>
    rw [List.filter_cons_of_pos (isIndentationError_misplacedError _ _ _)]
    rfl
  | stray =>
    rw [List.filter_cons_of_neg (by rw [isIndentationError_strayError]; exact Bool.false_ne_true)]
    rfl
  | header h => exact understood h
  | statement h => exact understood h

end Errors

/-- What the next row adds to a list that is made of the rows. -/
theorem filterMap_take_succ {β : Type} {f : Judgement → Option β} {j : Judgement}
    (here : judged[n]? = some j) :
    (judged.take (n + 1)).filterMap f = (judged.take n).filterMap f ++ (f j).toList := by
  rw [List.take_add_one, here, List.filterMap_append]
  cases found : f j <;> simp [found]

/-- **The rows of a run nest as their indentation says**, and each one that is misplaced reports so. -/
theorem Run.nesting {r : Registry} {c c' : Context} (run : Run r {} c judged o c') :
    (∀ n j, judged[n]? = some j → Fits (judged.map Judgement.row) n j.verdict) ∧
      Nested judged none judged.length (o.close 0).statements ∧
      ∃ added, c'.diagnostics = c.diagnostics ++ added ∧
        (judged.filterMap Judgement.misplacedError?).Sublist added := by
  obtain ⟨blocks, opened, fits, contents, added, reported, errors⟩ := run.induction (fun line => rfl)
    (b := Bounds.none) (fun line _ _ _ _ _ _ => Bounds.within_none line _)
    (I := fun n blocks o reported =>
      (∀ m j, m < n → judged[m]? = some j → Fits (judged.map Judgement.row) m j.verdict) ∧
        Contents judged n blocks o.blocks o.statements ∧
        ∃ added, reported = c.diagnostics ++ added ∧
          ((judged.take n).filterMap Judgement.misplacedError?).Sublist added)
    ⟨fun m j below => absurd below (Nat.not_lt_zero m), .none none, [], (List.append_nil _).symm,
      .refl _⟩
    (by
      rintro n blocks o row verdict added read reported ⟨fits, contents, before, rfl, errors⟩
      refine ⟨fun m j below here => ?_, read.contents contents, _, List.append_assoc .., ?_⟩
      · by_cases last : m = n
        · subst last
          cases here.symm.trans read.here
          exact read.fits
        · exact fits m j (by omega) here
      · rw [filterMap_take_succ read.here]
        refine errors.append (.trans read.explains.misplacedError_sublist ?_)
        exact List.sublist_append_right _ _)
  rw [List.take_length] at errors
  refine ⟨fun n j here => ?_, opened.nested contents, added, reported, errors⟩
  exact fits n j (List.getElem?_eq_some_iff.1 here).1 here

/-- If no decision reports an error about an indentation, only the rows do that are misplaced. -/
theorem Run.indentationErrors {r : Registry} {c c' : Context} (run : Run r {} c judged o c')
    (others : ∀ category, ∀ x ∈ r.candidates category,
      NeverReports (isIndentationError ·) x.definition.decide) :
    ∃ added, c'.diagnostics ++ o.warnings 0 = c.diagnostics ++ added ∧
      added.filter isIndentationError = judged.filterMap Judgement.misplacedError? := by
  have noWarning {m : Nat} {blocks : List Nat} {o : Outline} (opened : OpenAt judged m o blocks)
      (indent : Nat) : (o.warnings indent).filter isIndentationError = [] := by
    exact List.filter_eq_nil_iff.2 fun w mem => not_isIndentationError_warning (opened.warnings mem).1
  obtain ⟨blocks, opened, added, reported, errors⟩ := run.induction (fun line => rfl)
    (b := fun line => Bounds.reporting line (fun d => ¬ isIndentationError d)
      fun span message => not_isIndentationError_warning rfl)
    (fun line category x mem => Bounds.permits_reporting (others category x mem))
    (I := fun n blocks o reported => ∃ added, reported = c.diagnostics ++ added ∧
      added.filter isIndentationError = (judged.take n).filterMap Judgement.misplacedError?)
    ⟨[], (List.append_nil _).symm, rfl⟩
    (by
      rintro n blocks o row verdict added read reported ⟨before, rfl, errors⟩
      refine ⟨_, List.append_assoc .., ?_⟩
      rw [List.filter_append, List.filter_append, noWarning read.opened, List.nil_append, errors,
        filterMap_take_succ read.here, read.explains.filter_isIndentationError fun d allowed => allowed])
  refine ⟨added ++ o.warnings 0, ?_, ?_⟩
  · rw [reported, List.append_assoc]
  · rw [List.filter_append, noWarning opened, List.append_nil, errors, List.take_length]

end Phrasebook.Script

namespace Phrasebook
open Script

/-- **Block nesting is exactly what the indentation says.** The rows of a script are misplaced exactly if they
are not well indented, and then they report so; the headers among the others open blocks. The statements of the
script are those of the rows that were accepted, each in the statement of its parent, or at the margin if it
has none; what is in a block whose header was turned down is in none. -/
theorem parseScript_nesting {r : Registry} {source : String} {c : Context} {s : Script}
    (parsed : r.parseScript source c = .ok s) :
    ∃ judged added, r.judgements source c = .ok judged ∧
      judged.map Judgement.row = rowsOf source ∧ s.diagnostics = c.diagnostics ++ added ∧
      (∀ n row verdict, judged[n]? = some { row, verdict } →
        ((∃ expected, verdict = .misplaced expected) ↔ ¬ WellIndented (rowsOf source) n) ∧
        ((∃ node?, verdict = .header node?) ↔ IsBlock (rowsOf source) n) ∧
        ∀ expected, verdict = .misplaced expected → Expects (rowsOf source) n expected) ∧
      (judged.filterMap Judgement.misplacedError?).Sublist added ∧
      ((∀ category, ∀ x ∈ r.candidates category,
          NeverReports (isIndentationError ·) x.definition.decide) →
        added.filter isIndentationError = judged.filterMap Judgement.misplacedError?) ∧
      Nested judged none judged.length s.statements := by
  obtain ⟨judged, o, c', found, rows, run, statements, diagnostics⟩ :=
    Registry.parseScript_run parsed
  obtain ⟨fits, nested, added, reported, errors⟩ := run.nesting
  have left := (o.adds_leave 0 c').diagnostics
  have whole : s.diagnostics = c.diagnostics ++ (added ++ o.warnings 0) := by
    rw [diagnostics, left, reported, List.append_assoc]
  rw [rows] at fits
  rw [← statements] at nested
  refine ⟨judged, _, found, rows, whole, fun n row verdict here => ?_,
    errors.trans (List.sublist_append_left _ _), fun others => ?_, nested⟩
  · have fit := fits n _ here
    refine ⟨fit.misplaced_iff, fit.header_iff, fun expected same => ?_⟩
    dsimp only at fit
    rw [same] at fit
    cases fit with
    | misplaced expects _ => exact expects
  · obtain ⟨added', reported', errors'⟩ := run.indentationErrors others
    have same : added' = added ++ o.warnings 0 := by
      rw [reported, List.append_assoc] at reported'
      exact (List.append_cancel_left reported').symm
    rw [← same]
    exact errors'

/-- A vocabulary of blocks, and of a statement that prints what it is given. -/
def blockWords : List Entry :=
  [.type { name := "number", plural := "numbers", literal := some fun s =>
      if s == "1" then some (.int 1) else none },
    .definition { category := .event, patterns := ["start"] },
    .definition { category := .sectionHead, patterns := ["if %number%"] },
    .definition { category := .effect, patterns := ["print %number%"] }]

/-- A script with a row that is misplaced, and with a block whose header is not understood. -/
def blockSource : String :=
  "start:\n  print 1\n\tprint 1\n  if 1:\n\tprint 1\n  lost:\n    print 1\nprint 1"

/-- The rows of such a script nest as their indentation says. -/
theorem parseScript_nesting_start :
    let r := ((RegistryBuilder.withConfig {}).addAll blockWords).1.build
    ∃ s judged, r.parseScript blockSource {} = .ok s ∧ r.judgements blockSource {} = .ok judged ∧
      s.diagnostics.filter isIndentationError = judged.filterMap Judgement.misplacedError? ∧
      Nested judged none judged.length s.statements := by
  intro r
  have parses : (r.parseScript blockSource {}).toOption.isSome = true := by decide +kernel
  have quiet : ∀ category, ∀ x ∈ r.candidates category,
      NeverReports (isIndentationError ·) x.definition.decide :=
    RegistryBuilder.candidates_decides (P := NeverReports (isIndentationError ·))
      (by simp [blockWords, Entry.Decides, neverReports_accept])
  cases parsed : r.parseScript blockSource {} with
  | error => simp [parsed, Except.toOption] at parses
  | ok s =>
    obtain ⟨judged, added, found, -, reported, -, -, errors, nested⟩ := parseScript_nesting parsed
    have all : s.diagnostics = added := reported
    refine ⟨s, judged, rfl, found, ?_, nested⟩
    rw [all]
    exact errors quiet

end Phrasebook
