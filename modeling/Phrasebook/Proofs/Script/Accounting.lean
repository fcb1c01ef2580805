import Mathlib.Data.List.Nodup
import Phrasebook.Proofs.Script.Nesting

/-!
# Every row is accounted for once

A row of a script is either accepted, and its node stands on its line, or turned down, and then one error is
reported on its line (`Run.errors`). The nodes of a script from top to bottom are those of the rows that were
accepted, except for the blocks whose header was turned down (`Run.nodes`), and what is reported comes in the
order of the lines (`Run.sorted`). Together this is `parseScript_accounts`.
-/

namespace Phrasebook.Script
open Parse

section Numbers

theorem number_of_ofLine? {line : List Char} {index : Nat} {row : Row}
    (h : Row.ofLine? line index = some row) : row.number = min greatestPosition (index + 1) := by
  unfold Row.ofLine? at h
  dsimp only at h
  split at h
  · cases h
  · cases h
    rfl

theorem pairwise_zipIdx {α : Type} (l : List α) :
    l.zipIdx.Pairwise fun x y => x.2 < y.2 := by
  rw [List.pairwise_iff_getElem]
  intro i j lt lt' before
  rw [List.getElem_zipIdx, List.getElem_zipIdx]
  simpa using before

/-- The rows come in the order of their lines. -/
theorem rowsOf_sorted (source : String) :
    (rowsOf source).Pairwise fun a b => a.number ≤ b.number := by
  unfold rowsOf
  rw [List.pairwise_filterMap]
  refine (pairwise_zipIdx _).imp fun {x y} before row found row' found' => ?_
  rw [number_of_ofLine? found, number_of_ofLine? found']
  omega

/-- No two rows have the same line, as long as there are no more lines than can be counted. -/
theorem rowsOf_increasing {source : String}
    (few : (Text.lines source.toList).length ≤ greatestPosition) :
    (rowsOf source).Pairwise fun a b => a.number < b.number := by
  unfold rowsOf
  rw [List.pairwise_filterMap]
  refine (pairwise_zipIdx _).imp_of_mem fun {x y} _ among before row found row' found' => ?_
  have last : y.2 < (Text.lines source.toList).length := List.snd_lt_of_mem_zipIdx among
  rw [number_of_ofLine? found, number_of_ofLine? found']
  omega

end Numbers

section Nodes

mutual

/-- The nodes of a statement from top to bottom. -/
def nodesOf : Statement → List Node
  | ⟨node, children⟩ => node :: nodesIn children

/-- The nodes of statements in order. -/
def nodesIn : List Statement → List Node
  | [] => []
  | s :: rest => nodesOf s ++ nodesIn rest

end

theorem nodesIn_append (statements statements' : List Statement) :
    nodesIn (statements ++ statements') = nodesIn statements ++ nodesIn statements' := by
  induction statements with
  | nil => rw [nodesIn, List.nil_append, List.nil_append]
  | cons s rest ih => rw [List.cons_append, nodesIn, nodesIn, ih, List.append_assoc]

theorem nodesIn_singleton (s : Statement) : nodesIn [s] = nodesOf s := by
  rw [nodesIn, nodesIn, List.append_nil]

/-- The nodes of open blocks, the innermost first, once these are closed. `inner` comes at the end of the
innermost. A block whose header was turned down is dropped. -/
def nodesOfBlocks : List OpenBlock → (inner : List Node) → List Node
  | [], inner => inner
  | b :: rest, inner =>
    nodesOfBlocks rest (match b.header with
      | none => []
      | some node => node :: (nodesIn b.children ++ inner))

/-- The nodes of an outline from top to bottom. -/
def Outline.nodes (o : Outline) : List Node :=
  nodesIn o.statements ++ nodesOfBlocks o.blocks []

/-- What comes at the end of the innermost block comes to an end unless some header was turned down. -/
theorem nodesOfBlocks_append (blocks : List OpenBlock) (inner more : List Node) :
    nodesOfBlocks blocks (inner ++ more) =
      nodesOfBlocks blocks inner ++ if blocks.all (·.header.isSome) then more else [] := by
  induction blocks generalizing inner more with
  | nil => rfl
  | cons b rest ih =>
    rw [nodesOfBlocks, nodesOfBlocks]
    cases header : b.header with
    | none => simp [header]
    | some node =>
      have assoc : node :: (nodesIn b.children ++ (inner ++ more)) =
          (node :: (nodesIn b.children ++ inner)) ++ more := by
        rw [List.cons_append, List.append_assoc]
      dsimp only
      rw [assoc, ih]
      simp [header]

/-- Closing blocks neither drops nor adds nor moves a node. -/
theorem nodes_closeBlocks (indent : Nat) (blocks : List OpenBlock) (closed : List Statement) :
    nodesIn (closeBlocks indent blocks closed).2 ++
        nodesOfBlocks (closeBlocks indent blocks closed).1 [] =
      nodesOfBlocks blocks (nodesIn closed) := by
  induction blocks generalizing closed with
  | nil => rw [closeBlocks, nodesOfBlocks, nodesOfBlocks, List.append_nil]
  | cons b rest ih =>
    rw [closeBlocks, nodesOfBlocks]
    split
    · rw [ih]
      congr 1
      unfold OpenBlock.statement?
      cases header : b.header with
      | none => simp [nodesIn]
      | some node => simp [nodesIn_singleton, nodesOf, nodesIn_append]
    · cases header : b.header with
      | none => simp [nodesIn, nodesOfBlocks]
      | some node => simp [nodesIn, nodesOfBlocks, nodesIn_append]

theorem Outline.nodes_close (o : Outline) (indent : Nat) : (o.close indent).nodes = o.nodes := by
  unfold Outline.nodes
  show nodesIn (o.statements ++ (closeBlocks indent o.blocks []).2) ++ _ = _
  rw [nodesIn_append, List.append_assoc]
  congr 1
  exact nodes_closeBlocks indent o.blocks []

theorem Outline.nodes_moved (o : Outline) (indent : Nat) : (o.moved indent).nodes = o.nodes := by
  rw [← o.nodes_close indent]
  unfold Outline.moved Outline.indentLine Outline.nodes
  split
  · rfl
  next b rest found =>
    split
    · simp only [found, nodesOfBlocks]
    · rfl

/-- A row that is settled adds its node at the end, unless a header around it was turned down. -/
theorem Outline.nodes_settled (o : Outline) (row : Row) (verdict : Verdict) :
    (o.settled row verdict).nodes =
      o.nodes ++ if o.blocks.all (·.header.isSome) then verdict.node?.toList else [] := by
  have nothing : o.nodes = o.nodes ++ if o.blocks.all (·.header.isSome) then ([] : List Node) else [] := by
    split <;> rw [List.append_nil]
  cases verdict with
  | misplaced => exact nothing
  | stray => exact nothing
  | header node? =>
    have opened := nodesOfBlocks_append o.blocks [] node?.toList
    unfold Outline.nodes
    show nodesIn o.statements ++ nodesOfBlocks (_ :: o.blocks) [] = _
    rw [List.append_assoc, Verdict.node?, ← opened, nodesOfBlocks]
    cases node? with
    | none => rfl
    | some node => simp [nodesIn]
  | statement node? =>
    cases node? with
    | none => exact nothing
    | some node =>
      unfold Outline.nodes Outline.settled Outline.add
      cases found : o.blocks with
      | nil => simp [nodesOfBlocks, nodesIn_append, nodesOf, nodesIn, Verdict.node?]
      | cons b rest =>
        have more := nodesOfBlocks_append (b :: rest) [] [node]
        rw [List.append_assoc, Verdict.node?, Option.toList_some, ← more]
        dsimp only
        congr 1
        simp [nodesOfBlocks, nodesIn_append, nodesOf, nodesIn]

end Nodes

variable {judged : List Judgement} {n : Nat} {o : Outline} {blocks : List Nat}

section Kept

/-- A row is in a block whose header was turned down. -/
def Dropped (judged : List Judgement) (n : Nat) : Prop :=
  ∃ i, IsBlock (judged.map Judgement.row) i ∧ Around (judged.map Judgement.row) i n ∧
    nodeAt judged i = none

/-- The first rows whose nodes are kept: those that were accepted and are not dropped, in order. -/
structure Kept (judged : List Judgement) (n : Nat) (kept : List Nat) : Prop where
  increasing : kept.Pairwise (· < ·)
  mem (m : Nat) : m ∈ kept ↔ m < n ∧ (nodeAt judged m).isSome ∧ ¬ Dropped judged m

/-- A row is dropped if a block that it stands in has no header that was accepted. -/
theorem StandsAt.all_headers (h : StandsAt judged n o blocks) :
    o.blocks.all (·.header.isSome) = true ↔ ¬ Dropped judged n := by
  have frames : o.blocks.all (·.header.isSome) =
      (o.blocks.map OpenBlock.frame).all (·.header.isSome) := by
    rw [List.all_map]
    rfl
  rw [frames, h.frames, List.all_map, List.all_eq_true]
  constructor
  · rintro accepted ⟨i, block, around, none⟩
    have some : (nodeAt judged i).isSome = true := accepted i ((h.mem i).2 ⟨block, around⟩)
    rw [none] at some
    cases some
  · intro kept i inside
    show (nodeAt judged i).isSome = true
    by_contra none
    obtain ⟨block, around⟩ := (h.mem i).1 inside
    exact kept ⟨i, block, around, by simpa using none⟩

/-- One more row is kept at the end, or is not. -/
theorem Kept.succ {kept : List Nat} (h : Kept judged n kept) :
    ((nodeAt judged n).isSome ∧ ¬ Dropped judged n → Kept judged (n + 1) (kept ++ [n])) ∧
      (¬ ((nodeAt judged n).isSome ∧ ¬ Dropped judged n) → Kept judged (n + 1) kept) := by
  constructor
  · intro here
    refine ⟨?_, fun m => ?_⟩
    · refine List.pairwise_append.2 ⟨h.increasing, List.pairwise_singleton _ n, fun m mem m' last => ?_⟩
      rw [List.mem_singleton.1 last]
      exact ((h.mem m).1 mem).1
    · rw [List.mem_append, h.mem, List.mem_singleton]
      constructor
      · rintro (⟨below, keeps⟩ | rfl)
        · exact ⟨Nat.lt_succ_of_lt below, keeps⟩
        · exact ⟨Nat.lt_succ_self m, here⟩
      · rintro ⟨below, keeps⟩
        rcases Nat.lt_succ_iff_lt_or_eq.1 below with before | last
        · exact .inl ⟨before, keeps⟩
        · exact .inr last
  · intro other
    refine ⟨h.increasing, fun m => ?_⟩
    rw [h.mem]
    constructor
    · rintro ⟨below, keeps⟩
      exact ⟨Nat.lt_succ_of_lt below, keeps⟩
    · rintro ⟨below, keeps⟩
      rcases Nat.lt_succ_iff_lt_or_eq.1 below with before | rfl
      · exact ⟨before, keeps⟩
      · exact absurd keeps other

/-- **A row that is accepted adds its node at the end** unless it is dropped. -/
theorem RowRead.nodes {bounds : Nat → Bounds} {row : Row} {verdict : Verdict}
    {added : List Diagnostic} (h : RowRead bounds judged n blocks o row verdict added)
    (before : ∃ kept, Kept judged n kept ∧ o.nodes.map some = kept.map (nodeAt judged)) :
    ∃ kept, Kept judged (n + 1) kept ∧
      ((o.moved row.indent).settled row verdict).nodes.map some = kept.map (nodeAt judged) := by
  obtain ⟨kept, keeps, same⟩ := before
  have node : nodeAt judged n = verdict.node? := by rw [nodeAt, h.here, Option.bind_some]
  rw [Outline.nodes_settled, Outline.nodes_moved]
  have inside := h.stands.all_headers
  by_cases here : (nodeAt judged n).isSome ∧ ¬ Dropped judged n
  · obtain ⟨accepted, found⟩ := Option.isSome_iff_exists.1 here.1
    refine ⟨kept ++ [n], keeps.succ.1 here, ?_⟩
    rw [if_pos (inside.2 here.2), ← node, found, List.map_append, List.map_append, same]
    simp [found]
  · refine ⟨kept, keeps.succ.2 here, ?_⟩
    split
    next all =>
      have none : verdict.node? = none := by
        rw [← node]
        by_contra some
        exact here ⟨Option.isSome_iff_ne_none.2 some, inside.1 all⟩
      rw [none, Option.toList_none, List.append_nil]
      exact same
    · rw [List.append_nil]
      exact same

/-- **The nodes of a run** are those of the rows that are kept. -/
theorem Run.nodes {r : Registry} {c c' : Context} (run : Run r {} c judged o c') :
    ∃ kept, Kept judged judged.length kept ∧
      (nodesIn (o.close 0).statements).map some = kept.map (nodeAt judged) := by
  obtain ⟨blocks, opened, kept, keeps, same⟩ := run.induction (fun line => rfl)
    (b := Bounds.none) (fun line _ _ _ _ _ _ => Bounds.within_none line _)
    (I := fun n _ o _ => ∃ kept, Kept judged n kept ∧ o.nodes.map some = kept.map (nodeAt judged))
    ⟨[], ⟨.nil, fun m => by simp⟩, rfl⟩ (fun read _ before => read.nodes before)
  have margin : (o.close 0).blocks = [] := by
    have frames := opened.frames_close
    rw [indentAt_length, goingOn_length] at frames
    exact List.map_eq_nil_iff.1 frames
  have all : nodesIn (o.close 0).statements = o.nodes := by
    rw [← o.nodes_close 0, Outline.nodes, margin, nodesOfBlocks, List.append_nil]
  exact ⟨kept, keeps, by rw [all]; exact same⟩

end Kept

section Decisions

/-- A definition leaves the place of a node that it accepts as it was matched. -/
def KeepsSpan (decide : Node → Action) : Prop :=
  ∀ node, (decide node).Accepts fun accepted => accepted.span = node.span

/-- A definition makes up no local variables on other lines: those of a node that it accepts are read on the
line, if those of the match are, and those of the texts that it has parsed. -/
def KeepsReads (decide : Node → Action) : Prop :=
  ∀ (node : Node) (line : Nat), (∀ read ∈ node.localReads, read.1.line = line) →
    (decide node).ReadsAt fun span => span.line = line

theorem keepsSpan_accept : KeepsSpan .accept := fun _ => rfl

theorem keepsReads_accept : KeepsReads .accept := fun _ _ reads => reads

/-- No errors are reported, and nodes stand on the line. -/
def errorless (line : Nat) : Bounds where
  line := line
  Reports d := ¬ d.isError
  Nodes span := span.line = line
  Reads _ := True
  nodes here := here
  reads _ := trivial
  warns _ _ := Bool.false_ne_true

/-- What is reported is reported on the line. -/
def onLine (line : Nat) : Bounds where
  line := line
  Reports d := d.line = line
  Nodes _ := True
  Reads span := span.line = line
  nodes _ := trivial
  reads here := here
  warns _ here := here

theorem permits_errorless {decide : Node → Action} (quiet : NeverReports (fun _ => True) decide)
    (keeps : KeepsSpan decide) (line : Nat) : (errorless line).Permits decide := by
  intro node here _
  refine Action.within ((quiet node).imp fun d none => absurd trivial none)
    ((keeps node).imp fun accepted same => ?_) (Action.readsAt_of_forall (fun _ => trivial) _)
  show accepted.span.line = line
  rw [same]
  exact here

theorem permits_onLine {decide : Node → Action} (quiet : NeverReports (fun _ => True) decide)
    (keeps : KeepsReads decide) (line : Nat) : (onLine line).Permits decide := by
  intro node _ reads
  exact Action.within ((quiet node).imp fun d none => absurd trivial none)
    (Action.accepts_of_forall (fun _ => trivial) _) (keeps node line reads)

end Decisions

section Errors

/-- What explains a verdict is one error on the line if the row was turned down, and none if it was accepted. -/
theorem Explains.errors {row : Row} {verdict : Verdict} {added : List Diagnostic}
    (h : Explains (errorless row.number) row verdict added) :
    (added.filter Diagnostic.isError).map Diagnostic.line =
      if verdict.isRejected then [row.number] else [] := by
  have understood {node? : Option Node} (h : Understands (errorless row.number) node? added) :
      (added.filter Diagnostic.isError).map Diagnostic.line =
        if node?.isNone then [row.number] else [] := by
    cases node? with
    | none =>
      obtain ⟨span, fault, line, rfl⟩ := h
      show [span.line] = [row.number]
      rw [line]
      rfl
    | some node =>
      have none : added.filter Diagnostic.isError = [] :=
        List.filter_eq_nil_iff.2 fun d mem => h.2 d mem
      rw [none]
      rfl
  cases h with
  | misplaced => rfl
  | stray => rfl
  | header h => exact understood h
  | statement h => exact understood h

/-- The node of a row that was accepted stands on the line of the row. -/
theorem Explains.node_line {row : Row} {verdict : Verdict} {added : List Diagnostic}
    (h : Explains (errorless row.number) row verdict added) {node : Node}
    (accepted : verdict.node? = some node) : node.span.line = row.number := by
  have understood {node? : Option Node} (h : Understands (errorless row.number) node? added)
      (accepted : node? = some node) : node.span.line = row.number := by
    rw [accepted] at h
    exact h.1.1
  cases h with
  | misplaced => cases accepted
  | stray => cases accepted
  | header h => exact understood h accepted
  | statement h => exact understood h accepted

/-- What explains a verdict is reported on the line. -/
theorem Explains.line {row : Row} {verdict : Verdict} {added : List Diagnostic}
    (h : Explains (onLine row.number) row verdict added) : ∀ d ∈ added, d.line = row.number := by
  have understood {node? : Option Node} (h : Understands (onLine row.number) node? added) :
      ∀ d ∈ added, d.line = row.number := by
    cases node? with
    | none =>
      obtain ⟨span, fault, line, rfl⟩ := h
      intro d mem
      rw [List.mem_singleton.1 mem]
      exact line
    | some node => exact h.2
  cases h with
  | misplaced =>
    intro d mem
    rw [List.mem_singleton.1 mem]
    rfl
  | stray =>
    intro d mem
    rw [List.mem_singleton.1 mem]
    rfl
  | header h => exact understood h
  | statement h => exact understood h

theorem OpenAt.filter_warnings (h : OpenAt judged n o blocks) (indent : Nat) :
    (o.warnings indent).filter Diagnostic.isError = [] := by
  refine List.filter_eq_nil_iff.2 fun w mem => ?_
  rw [Diagnostic.isError, (h.warnings mem).1]
  exact Bool.false_ne_true

variable {r : Registry} {c c' : Context}

/-- **Every row gives a node on its line or one error on its line**, if the decisions report nothing and leave
the places of nodes alone. -/
theorem Run.errors (run : Run r {} c judged o c')
    (quiet : ∀ category, ∀ x ∈ r.candidates category,
      NeverReports (fun _ => True) x.definition.decide ∧ KeepsSpan x.definition.decide) :
    (∀ (n : Nat) (j : Judgement) (node : Node), judged[n]? = some j →
        j.verdict.node? = some node → node.span.line = j.row.number) ∧
      ∃ added, c'.diagnostics ++ o.warnings 0 = c.diagnostics ++ added ∧
        (added.filter Diagnostic.isError).map Diagnostic.line =
          (judged.filter (·.verdict.isRejected)).map (·.row.number) := by
  obtain ⟨blocks, opened, lines, added, reported, errors⟩ := run.induction (fun line => rfl)
    (b := errorless)
    (fun line category x mem => permits_errorless (quiet category x mem).1 (quiet category x mem).2 line)
    (I := fun n _ _ reported =>
      (∀ (m : Nat) (j : Judgement) (node : Node), m < n → judged[m]? = some j →
        j.verdict.node? = some node → node.span.line = j.row.number) ∧
      ∃ added, reported = c.diagnostics ++ added ∧
        (added.filter Diagnostic.isError).map Diagnostic.line =
          ((judged.take n).filter (·.verdict.isRejected)).map (·.row.number))
    ⟨fun m _ _ below => absurd below (Nat.not_lt_zero m), [], (List.append_nil _).symm, rfl⟩
    (by
      rintro n blocks o row verdict added read reported ⟨lines, before, rfl, errors⟩
      refine ⟨fun m j node below here accepted => ?_, _, List.append_assoc .., ?_⟩
      · by_cases last : m = n
        · subst last
          cases here.symm.trans read.here
          exact read.explains.node_line accepted
        · exact lines m j node (by omega) here accepted
      · rw [List.filter_append, List.filter_append, read.opened.filter_warnings, List.nil_append,
          List.map_append, errors, read.explains.errors, List.take_add_one, read.here,
          List.filter_append, List.map_append]
        congr 1
        cases rejected : verdict.isRejected <;> simp [rejected])
  refine ⟨fun n j node here => lines n j node (List.getElem?_eq_some_iff.1 here).1 here,
    added ++ o.warnings 0, ?_, ?_⟩
  · rw [reported, List.append_assoc]
  · rw [List.filter_append, opened.filter_warnings, List.append_nil, errors, List.take_length]

end Errors

section Order

variable {r : Registry} {c c' : Context}

/-- Diagnostics come in the order of their lines, up to the last row. -/
def SortedUpTo (judged : List Judgement) (n : Nat) (added : List Diagnostic) : Prop :=
  (added.Pairwise fun d d' => d.line ≤ d'.line) ∧
    ∀ d ∈ added, ∃ m j, m < n ∧ judged[m]? = some j ∧ d.line ≤ j.row.number

/-- A relation between rows in order holds of any two rows of which one comes later. -/
theorem rel_of_lt {R : Row → Row → Prop} (sorted : (judged.map Judgement.row).Pairwise R) {m m' : Nat}
    {j j' : Judgement} (here : judged[m]? = some j) (here' : judged[m']? = some j') (lt : m < m') :
    R j.row j'.row := by
  obtain ⟨below, rfl⟩ := List.getElem?_eq_some_iff.1 here
  obtain ⟨below', rfl⟩ := List.getElem?_eq_some_iff.1 here'
  have holds := List.pairwise_iff_getElem.1 sorted m m' (by simpa using below) (by simpa using below') lt
  rwa [List.getElem_map, List.getElem_map] at holds

/-- What is reported on the line of a row that is the last one, or is just read, comes at the end. -/
theorem SortedUpTo.append {added new : List Diagnostic} {m n' : Nat} {j : Judgement}
    (h : SortedUpTo judged n added)
    (sorted : (judged.map Judgement.row).Pairwise fun a b => a.number ≤ b.number)
    (here : judged[m]? = some j) (last : n ≤ m + 1) (lt : m < n')
    (lines : ∀ d ∈ new, d.line = j.row.number) : SortedUpTo judged n' (added ++ new) := by
  refine ⟨List.pairwise_append.2 ⟨h.1, ?_, fun d mem d' mem' => ?_⟩, fun d mem => ?_⟩
  · rw [List.pairwise_iff_getElem]
    intro i i' below below' _
    have same : new[i].line = new[i'].line :=
      (lines _ (List.getElem_mem below)).trans (lines _ (List.getElem_mem below')).symm
    exact Nat.le_of_eq same
  · obtain ⟨k, before, lt, at_, le⟩ := h.2 d mem
    rw [lines d' mem']
    rcases Nat.eq_or_lt_of_le (Nat.lt_succ_iff.1 (Nat.lt_of_lt_of_le lt last)) with rfl | earlier
    · cases here.symm.trans at_
      exact le
    · exact Nat.le_trans le (rel_of_lt sorted at_ here earlier)
  · rcases List.mem_append.1 mem with old | new
    · obtain ⟨k, before, below, at_, le⟩ := h.2 d old
      exact ⟨k, before, by omega, at_, le⟩
    · exact ⟨m, j, lt, here, Nat.le_of_eq (lines d new)⟩

/-- Warnings about blocks that end come after what was reported before. -/
theorem SortedUpTo.warnings {added : List Diagnostic} (h : SortedUpTo judged n added)
    (sorted : (judged.map Judgement.row).Pairwise fun a b => a.number ≤ b.number)
    (opened : OpenAt judged n o blocks) (indent : Nat) :
    SortedUpTo judged n (added ++ o.warnings indent) := by
  cases warns : o.warnings indent with
  | nil =>
    rw [List.append_nil]
    exact h
  | cons w rest =>
    have mem : w ∈ o.warnings indent := by
      rw [warns]
      exact List.mem_cons_self
    obtain ⟨-, m, j, last, here, -⟩ := opened.warnings mem
    rw [← warns]
    refine h.append sorted here (by omega) (by omega) fun d mem => ?_
    obtain ⟨-, m', j', last', here', line, -⟩ := opened.warnings mem
    obtain rfl : m = m' := by omega
    cases here.symm.trans here'
    exact line

/-- **What is reported comes in the order of the lines**, if the decisions report nothing and read no local
variables on other lines. -/
theorem Run.sorted (run : Run r {} c judged o c')
    (quiet : ∀ category, ∀ x ∈ r.candidates category,
      NeverReports (fun _ => True) x.definition.decide ∧ KeepsReads x.definition.decide)
    (sorted : (judged.map Judgement.row).Pairwise fun a b => a.number ≤ b.number) :
    ∃ added, c'.diagnostics ++ o.warnings 0 = c.diagnostics ++ added ∧
      added.Pairwise fun d d' => d.line ≤ d'.line := by
  obtain ⟨blocks, opened, added, reported, upTo⟩ := run.induction (fun line => rfl) (b := onLine)
    (fun line category x mem => permits_onLine (quiet category x mem).1 (quiet category x mem).2 line)
    (I := fun n _ _ reported =>
      ∃ added, reported = c.diagnostics ++ added ∧ SortedUpTo judged n added)
    ⟨[], (List.append_nil _).symm, .nil, fun d mem => (List.not_mem_nil mem).elim⟩
    (by
      rintro n blocks o row verdict added read reported ⟨before, rfl, upTo⟩
      refine ⟨_, List.append_assoc .., ?_⟩
      rw [← List.append_assoc]
      exact (upTo.warnings sorted read.opened row.indent).append sorted read.here (by omega) (by omega)
        read.explains.line)
  refine ⟨added ++ o.warnings 0, ?_, (upTo.warnings sorted opened 0).1⟩
  rw [reported, List.append_assoc]

end Order

section Counts

/-- With lines that increase, exactly the rows with some property have an entry with their line. -/
theorem count_number (increasing : (judged.map (·.row.number)).Pairwise (· < ·)) {p : Judgement → Bool}
    {j : Judgement} (among : j ∈ judged) :
    ((judged.filter p).map (·.row.number)).count j.row.number = if p j then 1 else 0 := by
  have distinct : (judged.map (·.row.number)).Nodup := increasing.imp fun lt => Nat.ne_of_lt lt
  split
  next holds =>
    refine List.count_eq_one_of_mem ?_ (List.mem_map_of_mem (List.mem_filter.2 ⟨among, holds⟩))
    exact distinct.sublist (List.filter_sublist.map _)
  next fails =>
    refine List.count_eq_zero.2 fun mem => ?_
    obtain ⟨j', inside, same⟩ := List.mem_map.1 mem
    obtain ⟨among', holds⟩ := List.mem_filter.1 inside
    rw [List.inj_on_of_nodup_map distinct among' among same] at holds
    exact fails holds

/-- With lines that increase, exactly the rows that are kept have a node on their line. -/
theorem count_node {nodes : List Node} {kept : List Nat} (keeps : Kept judged judged.length kept)
    (same : nodes.map some = kept.map (nodeAt judged))
    (lines : ∀ (n : Nat) (j : Judgement) (node : Node), judged[n]? = some j →
      j.verdict.node? = some node → node.span.line = j.row.number)
    (increasing : (judged.map Judgement.row).Pairwise fun a b => a.number < b.number)
    {j : Judgement} (here : judged[n]? = some j) :
    (n ∈ kept → (nodes.map (·.span.line)).count j.row.number = 1) ∧
      (n ∉ kept → (nodes.map (·.span.line)).count j.row.number = 0) := by
  let numberAt (m : Nat) : Nat := (judged[m]?.map (·.row.number)).getD 0
  have number {m : Nat} {j : Judgement} (at_ : judged[m]? = some j) : numberAt m = j.row.number := by
    show (judged[m]?.map _).getD 0 = _
    rw [at_]
    rfl
  have each : nodes.map (·.span.line) = kept.map numberAt := by
    have both := congrArg (List.map fun node? : Option Node => (node?.map (·.span.line)).getD 0) same
    rw [List.map_map, List.map_map] at both
    refine Eq.trans both (List.map_congr_left fun m inside => ?_)
    obtain ⟨node, accepted⟩ := Option.isSome_iff_exists.1 ((keeps.mem m).1 inside).2.1
    obtain ⟨j, at_, found⟩ := Option.bind_eq_some_iff.1 accepted
    rw [Function.comp_apply, accepted, number at_]
    exact lines m j node at_ found
  have row {m : Nat} (inside : m ∈ kept) : ∃ j, judged[m]? = some j :=
    ⟨_, List.getElem?_eq_getElem ((keeps.mem m).1 inside).1⟩
  have less {m m' : Nat} (inside : m ∈ kept) {j' : Judgement} (at_ : judged[m']? = some j') :
      (m < m' → numberAt m < numberAt m') ∧ (m' < m → numberAt m' < numberAt m) := by
    obtain ⟨j, at'⟩ := row inside
    rw [number at', number at_]
    exact ⟨rel_of_lt increasing at' at_, rel_of_lt increasing at_ at'⟩
  have distinct : (kept.map numberAt).Nodup := by
    refine List.pairwise_map.2 (keeps.increasing.imp_of_mem fun {m m'} inside inside' lt => ?_)
    obtain ⟨j', at_⟩ := row inside'
    exact Nat.ne_of_lt ((less inside at_).1 lt)
  rw [each, ← number here]
  constructor
  · intro inside
    exact List.count_eq_one_of_mem distinct (List.mem_map_of_mem inside)
  · intro outside
    refine List.count_eq_zero.2 fun mem => ?_
    obtain ⟨m, inside, equal⟩ := List.mem_map.1 mem
    rcases Nat.lt_trichotomy m n with before | rfl | after
    · exact Nat.ne_of_lt ((less inside here).1 before) equal
    · exact outside inside
    · exact Nat.ne_of_gt ((less inside here).2 after) equal

end Counts

section

variable (judged : List Judgement) (nodes : List Node) (added : List Diagnostic)

/-- The rows are accounted for: the node of a row that was accepted stands on its line, and every other row has
one error on its line, in order. The nodes of the script are those of the rows that are kept, in order. -/
structure Accounted : Prop where
  line (n : Nat) (j : Judgement) (node : Node) : judged[n]? = some j →
    j.verdict.node? = some node → node.span.line = j.row.number
  errors : (added.filter Diagnostic.isError).map Diagnostic.line =
    (judged.filter (·.verdict.isRejected)).map (·.row.number)
  nodes : ∃ kept, Kept judged judged.length kept ∧ nodes.map some = kept.map (nodeAt judged)

/-- The rows have different lines, and each is accounted for exactly once: by one error if it was turned down,
and else by one node of the script, unless it is in a block whose header was turned down. -/
structure AccountedOnce : Prop where
  increasing : (judged.map (·.row.number)).Pairwise (· < ·)
  errors (j : Judgement) : j ∈ judged →
    ((added.filter Diagnostic.isError).map Diagnostic.line).count j.row.number =
      if j.verdict.isRejected then 1 else 0
  kept (n : Nat) (j : Judgement) : judged[n]? = some j → (nodeAt judged n).isSome → ¬ Dropped judged n →
    (nodes.map (·.span.line)).count j.row.number = 1
  others (n : Nat) (j : Judgement) : judged[n]? = some j → nodeAt judged n = none ∨ Dropped judged n →
    (nodes.map (·.span.line)).count j.row.number = 0

end

theorem Accounted.once {nodes : List Node} {added : List Diagnostic} (h : Accounted judged nodes added)
    (increasing : (judged.map Judgement.row).Pairwise fun a b => a.number < b.number) :
    AccountedOnce judged nodes added := by
  have numbers : (judged.map (·.row.number)).Pairwise (· < ·) := by
    rw [List.pairwise_map] at increasing ⊢
    exact increasing
  obtain ⟨kept, keeps, same⟩ := h.nodes
  have count {n : Nat} {j : Judgement} (here : judged[n]? = some j) :=
    count_node keeps same h.line increasing here
  refine ⟨numbers, fun j among => ?_, fun n j here accepted keep => ?_, fun n j here other => ?_⟩
  · rw [h.errors]
    exact count_number numbers among
  · refine (count here).1 ((keeps.mem n).2 ⟨?_, accepted, keep⟩)
    exact (List.getElem?_eq_some_iff.1 here).1
  · refine (count here).2 fun inside => ?_
    obtain ⟨-, accepted, keep⟩ := (keeps.mem n).1 inside
    rcases other with none | dropped
    · rw [none] at accepted
      cases accepted
    · exact keep dropped

end Phrasebook.Script

namespace Phrasebook
open Script

/-- **Every line of a script is accounted for exactly once**, if the decisions report nothing and leave the
places of nodes alone. As long as the lines can be counted no two rows share one; and if the decisions make up no
local variables on other lines, all that is reported comes in the order of the lines. -/
theorem parseScript_accounts {r : Registry} {source : String} {c : Context} {s : Script}
    (quiet : ∀ category, ∀ x ∈ r.candidates category,
      NeverReports (fun _ => True) x.definition.decide ∧ KeepsSpan x.definition.decide)
    (parsed : r.parseScript source c = .ok s) :
    ∃ judged added, r.judgements source c = .ok judged ∧
      judged.map Judgement.row = rowsOf source ∧ s.diagnostics = c.diagnostics ++ added ∧
      Accounted judged (nodesIn s.statements) added ∧
      ((Text.lines source.toList).length ≤ greatestPosition →
        AccountedOnce judged (nodesIn s.statements) added) ∧
      ((∀ category, ∀ x ∈ r.candidates category, KeepsReads x.definition.decide) →
        added.Pairwise fun d d' => d.line ≤ d'.line) := by
  obtain ⟨judged, o, c', found, rows, run, statements, diagnostics⟩ :=
    Registry.parseScript_run parsed
  obtain ⟨lines, added, reported, errors⟩ := run.errors quiet
  have left : s.diagnostics = c'.diagnostics ++ o.warnings 0 := by
    rw [diagnostics, (o.adds_leave 0 c').diagnostics]
  have accounted : Accounted judged (nodesIn s.statements) added := by
    rw [statements]
    exact ⟨lines, errors, run.nodes⟩
  refine ⟨judged, added, found, rows, left.trans reported, accounted, fun few => ?_, fun reads => ?_⟩
  · refine accounted.once ?_
    rw [rows]
    exact rowsOf_increasing few
  · have sorted := rowsOf_sorted source
    rw [← rows] at sorted
    obtain ⟨added', reported', ordered⟩ := run.sorted
      (fun category x mem => ⟨(quiet category x mem).1, reads category x mem⟩) sorted
    have same : added' = added := List.append_cancel_left (reported'.symm.trans reported)
    rw [← same]
    exact ordered

/-- A vocabulary whose statement is said to read a local variable on another line, the lower the later it is. -/
def strangeReads : List Entry :=
  [.definition
    { category := .effect, patterns := ["print"],
      decide := fun node =>
        let elsewhere := { node.span with line := 9 - node.span.line }
        .accept { node with arguments := [some (.var "_a" true default elsewhere)] } }]

/-- **What is reported need not be in order** if decisions make up local variables on other lines, though they report
nothing and leave the places of nodes alone. And of a row that is accepted in a block whose header is turned down
there is neither a node nor an error. -/
theorem parseScript_disordered :
    let r := ((RegistryBuilder.withConfig {}).addAll strangeReads).1.build
    (∀ category, ∀ x ∈ r.candidates category,
      NeverReports (fun _ => True) x.definition.decide ∧ KeepsSpan x.definition.decide) ∧
    (∃ s, r.parseScript "print\nprint" {} = .ok s ∧ s.diagnostics.map Diagnostic.line = [8, 7]) ∧
    ∃ s, r.parseScript "lost:\n  print" {} = .ok s ∧ s.statements.length = 0 ∧
      (s.diagnostics.filter Diagnostic.isError).map Diagnostic.line = [1] := by
  intro r
  have quiet : ∀ category, ∀ x ∈ r.candidates category,
      NeverReports (fun _ => True) x.definition.decide ∧ KeepsSpan x.definition.decide := by
    refine RegistryBuilder.candidates_decides
      (P := fun decide => NeverReports (fun _ => True) decide ∧ KeepsSpan decide) ?_
    simp only [strangeReads, Entry.Decides, List.forall_mem_singleton]
    exact ⟨fun _ => trivial, fun _ => rfl⟩
  have lines : (r.parseScript "print\nprint" {}).toOption.map (fun s => s.diagnostics.map Diagnostic.line) =
      some [8, 7] := by decide +kernel
  have within : (r.parseScript "lost:\n  print" {}).toOption.map (fun s =>
      (s.statements.length, (s.diagnostics.filter Diagnostic.isError).map Diagnostic.line)) =
      some (0, [1]) := by decide +kernel
  obtain ⟨s, parsed, both⟩ := exists_of_map_toOption within
  obtain ⟨none, one⟩ := Prod.mk.inj both
  exact ⟨quiet, exists_of_map_toOption lines, s, parsed, none, one⟩

/-- A script with a row that is misplaced, a block whose header is not understood, one without rows, and local
variables that are not set. -/
def accountSource : String :=
  "start:\n  print \x7b_a\x7d\n\tprint 1\n\n  lost: # where?\n    print \x7b_b\x7d\nprint 2\nstart:\n"

/-- Each of its lines is accounted for once, in order. -/
theorem parseScript_accounts_start :
    let r := ((RegistryBuilder.withConfig {}).addAll blockWords).1.build
    ∃ s judged, r.parseScript accountSource {} = .ok s ∧
      r.judgements accountSource {} = .ok judged ∧
      AccountedOnce judged (nodesIn s.statements) s.diagnostics ∧
      s.diagnostics.Pairwise fun d d' => d.line ≤ d'.line := by
  intro r
  have parses : (r.parseScript accountSource {}).toOption.isSome = true := by decide +kernel
  have quiet : ∀ category, ∀ x ∈ r.candidates category,
      NeverReports (fun _ => True) x.definition.decide ∧ KeepsSpan x.definition.decide :=
    RegistryBuilder.candidates_decides
      (P := fun decide => NeverReports (fun _ => True) decide ∧ KeepsSpan decide)
      (by simp [blockWords, Entry.Decides, neverReports_accept, keepsSpan_accept])
  have reads : ∀ category, ∀ x ∈ r.candidates category, KeepsReads x.definition.decide :=
    RegistryBuilder.candidates_decides (P := KeepsReads)
      (by simp [blockWords, Entry.Decides, keepsReads_accept])
  have few : (Text.lines accountSource.toList).length ≤ greatestPosition := by decide +kernel
  cases parsed : r.parseScript accountSource {} with
  | error => simp [parsed, Except.toOption] at parses
  | ok s =>
    obtain ⟨judged, added, found, -, reported, -, once, sorted⟩ := parseScript_accounts quiet parsed
    have all : s.diagnostics = added := reported
    rw [← all] at once sorted
    exact ⟨s, judged, rfl, found, once few, sorted reads⟩

end Phrasebook
