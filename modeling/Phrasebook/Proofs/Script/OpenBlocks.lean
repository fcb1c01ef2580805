import Phrasebook.Proofs.Script.Indentation
import Phrasebook.Proofs.Script.Reports

/-!
# The blocks that are open

After some rows exactly those blocks are open that all later rows are indented more than (`OpenAt`). The next row
closes the others, and then stands in the blocks around it (`StandsAt`); if its indentation is the one that is
expected there, and it is a header, it opens a block itself. So the open blocks are at every moment what the
indentation of the rows says (`Run.induction`), and so is every verdict (`OpenAt.fits`).
-/

namespace Phrasebook.Script
open Parse

/-- A block without the statements in it. -/
def OpenBlock.frame (b : OpenBlock) : OpenBlock :=
  { b with children := [] }

/-- What the first rows tell of the block that one of them opens, except for the statements in it. -/
def blockAt (judged : List Judgement) (n i : Nat) : OpenBlock where
  indent := indentAt (judged.map Judgement.row) i
  childIndent := if i + 1 < n then some (indentAt (judged.map Judgement.row) (i + 1)) else none
  header := nodeAt judged i
  span := (judged[i]?.map fun j => j.row.start).getD default

theorem map_frame_closeBlocks (indent : Nat) (blocks : List OpenBlock) (closed : List Statement) :
    (closeBlocks indent blocks closed).1.map OpenBlock.frame =
      (blocks.map OpenBlock.frame).dropWhile (OpenBlock.isOutside indent) := by
  induction blocks generalizing closed with
  | nil => rfl
  | cons b rest ih =>
    rw [closeBlocks, List.map_cons]
    by_cases outside : b.isOutside indent = true
    · have same : b.frame.isOutside indent = true := outside
      have same' : { b with children := b.children ++ closed }.isOutside indent = true := outside
      rw [if_pos same', List.dropWhile_cons_of_pos same]
      exact ih _
    · have same : ¬ b.frame.isOutside indent = true := outside
      have same' : ¬ { b with children := b.children ++ closed }.isOutside indent = true := outside
      rw [if_neg same', List.dropWhile_cons_of_neg same]
      rfl

/-- Where all that comes after an element that is kept is kept as well, dropping is filtering. -/
theorem dropWhile_eq_filter {α : Type} {p : α → Bool} {l : List α}
    (h : l.Pairwise fun a b => p b = true → p a = true) :
    l.dropWhile p = l.filter fun a => !p a := by
  induction l with
  | nil => rfl
  | cons a rest ih =>
    obtain ⟨first, later⟩ := List.pairwise_cons.1 h
    by_cases dropped : p a = true
    · rw [List.dropWhile_cons_of_pos dropped, ih later, List.filter_cons_of_neg (by simp [dropped])]
    · have kept : ∀ b ∈ rest, (!p b) = true := by
        intro b mem
        simpa using fun drop => dropped (first b mem drop)
      rw [List.dropWhile_cons_of_neg dropped, List.filter_cons_of_pos (by simp [dropped]),
        List.filter_eq_self.2 kept]

section

variable (judged : List Judgement) (n : Nat) (o : Outline) (blocks : List Nat)

/-- After some rows those blocks are open, the innermost first, that lasted up to now. -/
structure OpenAt : Prop where
  frames : o.blocks.map OpenBlock.frame = blocks.map (blockAt judged n)
  sorted : blocks.Pairwise (· > ·)
  mem (i : Nat) : i ∈ blocks ↔
    IsBlock (judged.map Judgement.row) i ∧ Clear (judged.map Judgement.row) i n

/-- A row stands in the blocks that are around it. -/
structure StandsAt : Prop where
  frames : o.blocks.map OpenBlock.frame = blocks.map (blockAt judged (n + 1))
  sorted : blocks.Pairwise (· > ·)
  mem (i : Nat) : i ∈ blocks ↔
    IsBlock (judged.map Judgement.row) i ∧ Around (judged.map Judgement.row) i n

/-- The blocks that go on with a row. -/
def goingOn : List Nat :=
  blocks.filter fun i =>
    indentAt (judged.map Judgement.row) i < indentAt (judged.map Judgement.row) n

end

/-- The end of a script stands at the margin, and no block goes on with it. -/
theorem indentAt_length (judged : List Judgement) :
    indentAt (judged.map Judgement.row) judged.length = 0 := by
  simp [indentAt]

theorem goingOn_length (judged : List Judgement) (blocks : List Nat) :
    goingOn judged judged.length blocks = [] := by
  unfold goingOn
  rw [indentAt_length]
  exact List.filter_eq_nil_iff.2 fun i _ => by simp

/-- A verdict is what the indentation of the rows says. -/
inductive Fits (rows : List Row) (n : Nat) : Verdict → Prop where
  | misplaced {expected} : Expects rows n expected → expected ≠ indentAt rows n →
    Fits rows n (.misplaced expected)
  | stray : WellIndented rows n → ¬ IsHeader rows n → Fits rows n .stray
  | header {node?} : IsBlock rows n → Fits rows n (.header node?)
  | statement {node?} : WellIndented rows n → ¬ IsHeader rows n → Fits rows n (.statement node?)

namespace Fits

variable {rows : List Row} {n : Nat} {verdict : Verdict}

/-- Exactly the rows that are not well indented are misplaced. -/
theorem misplaced_iff (h : Fits rows n verdict) :
    (∃ expected, verdict = .misplaced expected) ↔ ¬ WellIndented rows n := by
  cases h with
  | misplaced expects other =>
    refine ⟨fun _ well => other ?_, fun _ => ⟨_, rfl⟩⟩
    exact expects.unique (wellIndented_iff.1 well)
  | stray well => exact ⟨nofun, fun other => absurd well other⟩
  | header block => exact ⟨nofun, fun other => absurd block.2 other⟩
  | statement well => exact ⟨nofun, fun other => absurd well other⟩

/-- Exactly the headers that are well indented open a block. -/
theorem header_iff (h : Fits rows n verdict) :
    (∃ node?, verdict = .header node?) ↔ IsBlock rows n := by
  cases h with
  | misplaced expects other =>
    refine ⟨nofun, fun block => absurd ?_ other⟩
    exact expects.unique (wellIndented_iff.1 block.2)
  | stray _ noHeader => exact ⟨nofun, fun block => absurd block.1 noHeader⟩
  | header block => exact ⟨fun _ => block, fun _ => ⟨_, rfl⟩⟩
  | statement _ noHeader => exact ⟨nofun, fun block => absurd block.1 noHeader⟩

end Fits

theorem blockAt_succ (judged : List Judgement) {n i : Nat} (lt : i + 1 < n) :
    blockAt judged (n + 1) i = blockAt judged n i := by
  unfold blockAt
  rw [if_pos lt, if_pos (Nat.lt_succ_of_lt lt)]

/-- Blocks that have had a row stay as they are. -/
theorem map_blockAt_succ (judged : List Judgement) {n : Nat} {blocks : List Nat}
    (before : ∀ i ∈ blocks, i + 1 < n) :
    blocks.map (blockAt judged (n + 1)) = blocks.map (blockAt judged n) :=
  List.map_congr_left fun i mem => blockAt_succ judged (before i mem)

/-- The first row of a block fixes the indentation of all its rows. -/
theorem blockAt_first (judged : List Judgement) (i : Nat) :
    blockAt judged (i + 2) i =
      { blockAt judged (i + 1) i with
        childIndent := some (indentAt (judged.map Judgement.row) (i + 1)) } := by
  unfold blockAt
  rw [if_pos (Nat.lt_succ_self (i + 1))]

theorem openAt_zero (judged : List Judgement) : OpenAt judged 0 {} [] where
  frames := rfl
  sorted := .nil
  mem i := by
    constructor
    · intro mem
      exact (List.not_mem_nil mem).elim
    · intro h
      exact (Nat.not_lt_zero i h.2.1).elim

variable {judged : List Judgement} {n : Nat} {o : Outline} {blocks : List Nat}

theorem OpenAt.lt (h : OpenAt judged n o blocks) {i : Nat} (mem : i ∈ blocks) : i < n :=
  ((h.mem i).1 mem).2.1

/-- An outer block is indented less. -/
theorem OpenAt.indents (h : OpenAt judged n o blocks) :
    blocks.Pairwise fun i j =>
      indentAt (judged.map Judgement.row) j < indentAt (judged.map Judgement.row) i := by
  refine h.sorted.imp_of_mem fun {i j} within outer lt => ?_
  exact ((h.mem j).1 outer).2.2 i lt (h.lt within)

/-- The blocks that a row closes are the inner ones. -/
theorem OpenAt.goingOn_eq (h : OpenAt judged n o blocks) :
    goingOn judged n blocks = blocks.dropWhile fun i =>
      indentAt (judged.map Judgement.row) n ≤ indentAt (judged.map Judgement.row) i := by
  have inner : blocks.Pairwise fun i j =>
      decide (indentAt (judged.map Judgement.row) n ≤ indentAt (judged.map Judgement.row) j) = true →
        decide (indentAt (judged.map Judgement.row) n ≤ indentAt (judged.map Judgement.row) i) = true := by
    refine h.indents.imp fun {i j} less outside => ?_
    rw [decide_eq_true_eq] at outside ⊢
    omega
  rw [dropWhile_eq_filter inner]
  unfold goingOn
  refine List.filter_congr fun i _ => ?_
  rw [← decide_not]
  exact decide_eq_decide.2 Nat.not_le.symm

theorem OpenAt.frames_close (h : OpenAt judged n o blocks) :
    (o.close (indentAt (judged.map Judgement.row) n)).blocks.map OpenBlock.frame =
      (goingOn judged n blocks).map (blockAt judged n) := by
  show (closeBlocks _ o.blocks []).1.map OpenBlock.frame = _
  rw [map_frame_closeBlocks, h.frames, List.dropWhile_map, h.goingOn_eq]
  rfl

/-- The blocks that go on with a row are those around it. -/
theorem OpenAt.mem_goingOn (h : OpenAt judged n o blocks) (i : Nat) :
    i ∈ goingOn judged n blocks ↔
      IsBlock (judged.map Judgement.row) i ∧ Around (judged.map Judgement.row) i n := by
  unfold goingOn
  rw [List.mem_filter, h.mem, decide_eq_true_eq, and_assoc]
  rfl

/-- A row is well indented unless it is not indented as expected. -/
theorem Expects.verdict {rows : List Row} {indent expected : Nat} (h : Expects rows n expected)
    (here : indentAt rows n = indent) :
    ((if indent == expected then none else some expected) = none → WellIndented rows n) ∧
      ∀ e, (if indent == expected then none else some expected) = some e →
        Expects rows n e ∧ e ≠ indent := by
  constructor
  · intro fits
    split at fits
    next same =>
      rw [wellIndented_iff, here, beq_iff_eq.1 same]
      exact h
    · cases fits
  · intro e found
    split at found
    · cases found
    next other =>
      cases found
      exact ⟨h, fun same => other (beq_iff_eq.2 same.symm)⟩

/-- **A row comes to stand in the blocks around it**, and is expected to be indented as the first row of the
innermost of them. -/
theorem OpenAt.moved (h : OpenAt judged n o blocks) {indent : Nat}
    (here : indentAt (judged.map Judgement.row) n = indent) :
    StandsAt judged n (o.moved indent) (goingOn judged n blocks) ∧
      (o.expected? indent = none → WellIndented (judged.map Judgement.row) n) ∧
      ∀ e, o.expected? indent = some e → Expects (judged.map Judgement.row) n e ∧ e ≠ indent := by
  have frames := h.frames_close
  have sorted : (goingOn judged n blocks).Pairwise (· > ·) := h.sorted.filter _
  have mem := h.mem_goingOn
  have parent := parentIs_head? sorted mem
  rw [here] at frames
  unfold Outline.moved Outline.expected? Outline.indentLine
  generalize o.close indent = closed at frames
  cases around : goingOn judged n blocks with
  | nil =>
    rw [around] at frames parent sorted mem
    have margin : closed.blocks = [] := List.map_eq_nil_iff.1 frames
    have expects : Expects (judged.map Judgement.row) n 0 := .inl ⟨parent, rfl⟩
    rw [margin]
    refine ⟨⟨?_, sorted, mem⟩, expects.verdict here⟩
    rw [margin]
    rfl
  | cons i rest =>
    rw [around] at frames parent sorted mem
    obtain ⟨b, outer, found, same, others⟩ := List.map_eq_cons_iff.1 frames
    have lt : i < n := ((mem i).1 List.mem_cons_self).2.lt
    have child : b.frame.childIndent = (blockAt judged n i).childIndent :=
      congrArg OpenBlock.childIndent same
    have expects : Expects (judged.map Judgement.row) n (indentAt (judged.map Judgement.row) (i + 1)) :=
      .inr ⟨i, parent, rfl⟩
    rw [← map_blockAt_succ judged fun j inside => by
      have before : j < i := List.rel_of_pairwise_cons sorted inside
      omega] at others
    rw [found]
    by_cases first : i + 1 < n
    · have known : b.childIndent = some (indentAt (judged.map Judgement.row) (i + 1)) :=
        child.trans (if_pos first)
      simp only [known]
      refine ⟨⟨?_, sorted, mem⟩, expects.verdict here⟩
      rw [found, List.map_cons, List.map_cons, others, same, blockAt_succ judged first]
    · obtain rfl : n = i + 1 := by omega
      have unknown : b.childIndent = none := child.trans (if_neg first)
      simp only [unknown]
      refine ⟨⟨?_, sorted, mem⟩, fun _ => ?_, nofun⟩
      · rw [List.map_cons, List.map_cons, others, blockAt_first, here, ← same]
        rfl
      · rw [wellIndented_iff]
        exact expects

/-- **A row that closes no block and is not the first in one leaves everything as it is.** -/
theorem OpenAt.unmoved (h : OpenAt judged n o blocks) {indent : Nat}
    (here : indentAt (judged.map Judgement.row) n = indent)
    (inside : ∀ i ∈ blocks, Around (judged.map Judgement.row) i n ∧ i + 1 ≠ n) :
    o.moved indent = o ∧ ∀ c, o.leave indent c = c := by
  have open_ {b : OpenBlock} (mem : b ∈ o.blocks) : b.isOutside indent = false ∧ b.childIndent.isSome = true := by
    have among : b.frame ∈ o.blocks.map OpenBlock.frame := List.mem_map_of_mem mem
    rw [h.frames] at among
    obtain ⟨i, isOpen, same⟩ := List.mem_map.1 among
    obtain ⟨around, later⟩ := inside i isOpen
    have less : b.indent < indent := by
      rw [← here, show b.indent = (blockAt judged n i).indent from (congrArg OpenBlock.indent same).symm]
      exact around.2
    have child : b.childIndent = (blockAt judged n i).childIndent :=
      (congrArg OpenBlock.childIndent same).symm
    have lt := around.lt
    refine ⟨decide_eq_false (Nat.not_le.2 less), ?_⟩
    rw [child, blockAt, if_pos (by omega)]
    rfl
  obtain ⟨bs, statements⟩ := o
  cases bs with
  | nil =>
    refine ⟨?_, fun c => rfl⟩
    simp [Outline.moved, Outline.close, closeBlocks, Outline.indentLine]
  | cons b rest =>
    obtain ⟨inside, known⟩ := open_ List.mem_cons_self
    obtain ⟨expected, known⟩ := Option.isSome_iff_exists.1 known
    constructor
    · have same : { b with children := b.children ++ [] } = b := by rw [List.append_nil]
      have closed : closeBlocks indent (b :: rest) [] = (b :: rest, []) := by
        rw [closeBlocks, same, if_neg (by simp [inside])]
      simp only [Outline.moved, Outline.close, closed, Outline.indentLine, known, List.append_nil]
    · intro c
      simp [Outline.leave, inside]

/-- **A verdict fits the indentation.** -/
theorem OpenAt.fits (h : OpenAt judged n o blocks) {row : Row} {verdict : Verdict}
    (here : judged[n]? = some { row, verdict }) (judges : Judges o row verdict) :
    Fits (judged.map Judgement.row) n verdict := by
  have at_ : (judged.map Judgement.row)[n]? = some row := by
    rw [List.getElem?_map, here, Option.map_some]
  have indent : indentAt (judged.map Judgement.row) n = row.indent := by
    rw [indentAt, at_, Option.map_some, Option.getD_some]
  obtain ⟨-, well, misplaced⟩ := h.moved indent
  have noHeader (none : row.header? = none) : ¬ IsHeader (judged.map Judgement.row) n := by
    rintro ⟨row', header, at', some⟩
    cases at_.symm.trans at'
    cases none.symm.trans some
  cases judges with
  | misplaced found =>
    obtain ⟨expects, other⟩ := misplaced _ found
    rw [← indent] at other
    exact .misplaced expects other
  | stray fits none => exact .stray (well fits) (noHeader none)
  | header fits some => exact .header ⟨⟨row, _, at_, some⟩, well fits⟩
  | statement fits none => exact .statement (well fits) (noHeader none)

/-- The blocks that are open after a row. -/
def blocksAfter (n : Nat) (blocks : List Nat) : Verdict → List Nat
  | .header _ => n :: blocks
  | .misplaced _ | .stray | .statement _ => blocks

/-- A statement that is added to a block does not change what else is known of it. -/
theorem map_frame_add (o : Outline) (s : Statement) :
    (o.add s).blocks.map OpenBlock.frame = o.blocks.map OpenBlock.frame := by
  unfold Outline.add
  split
  next margin => simp only [margin]
  next b rest found => simp only [found, List.map_cons, OpenBlock.frame]

/-- **After a row the blocks are open that last up to the next one.** -/
theorem StandsAt.settled (h : StandsAt judged n o blocks) {row : Row} {verdict : Verdict}
    (here : judged[n]? = some { row, verdict }) (fits : Fits (judged.map Judgement.row) n verdict) :
    OpenAt judged (n + 1) (o.settled row verdict) (blocksAfter n blocks verdict) := by
  -- nothing opens a block but a header
  have goOn (noBlock : ¬ IsBlock (judged.map Judgement.row) n) (i : Nat) : i ∈ blocks ↔
      IsBlock (judged.map Judgement.row) i ∧ Clear (judged.map Judgement.row) i (n + 1) := by
    rw [h.mem, clear_succ]
    constructor
    · rintro ⟨block, around⟩
      exact ⟨block, .inl around⟩
    · rintro ⟨block, around | rfl⟩
      · exact ⟨block, around⟩
      · exact absurd block noBlock
  cases fits with
  | misplaced expects other =>
    refine ⟨h.frames, h.sorted, goOn fun block => other ?_⟩
    exact expects.unique (wellIndented_iff.1 block.2)
  | stray _ noHeader => exact ⟨h.frames, h.sorted, goOn fun block => noHeader block.1⟩
  | @statement node? _ noHeader =>
    refine ⟨?_, h.sorted, goOn fun block => noHeader block.1⟩
    cases node? with
    | none => exact h.frames
    | some node =>
      show (o.add _).blocks.map OpenBlock.frame = _
      rw [map_frame_add]
      exact h.frames
  | @header node? block =>
    refine ⟨?_, ?_, fun i => ?_⟩
    · show OpenBlock.frame _ :: o.blocks.map OpenBlock.frame = blockAt judged (n + 1) n :: _
      rw [h.frames]
      congr 1
      simp [OpenBlock.frame, blockAt, indentAt, nodeAt, here, Verdict.node?]
    · refine List.pairwise_cons.2 ⟨fun i mem => ?_, h.sorted⟩
      exact ((h.mem i).1 mem).2.lt
    · show i ∈ n :: blocks ↔ _
      rw [List.mem_cons, h.mem, clear_succ]
      constructor
      · rintro (rfl | ⟨block, around⟩)
        · exact ⟨block, .inr rfl⟩
        · exact ⟨block, .inl around⟩
      · rintro ⟨block, around | rfl⟩
        · exact .inr ⟨block, around⟩
        · exact .inl rfl

/-- What is known of a row when it is read. -/
structure RowRead (bounds : Nat → Bounds) (judged : List Judgement) (n : Nat) (blocks : List Nat)
    (o : Outline) (row : Row) (verdict : Verdict) (added : List Diagnostic) : Prop where
  here : judged[n]? = some { row, verdict }
  opened : OpenAt judged n o blocks
  stands : StandsAt judged n (o.moved row.indent) (goingOn judged n blocks)
  fits : Fits (judged.map Judgement.row) n verdict
  explains : Explains (bounds row.number) row verdict added

/-- **From the blocks that are open before a row** follows what is known of it, and which are open after it. -/
theorem OpenAt.read {r : Registry} {b : Nat → Bounds} (lines : ∀ line, (b line).line = line)
    (permits : ∀ line category, ∀ x ∈ r.candidates category,
      (b line).Permits x.definition.decide)
    (opened : OpenAt judged n o blocks) {row : Row} {verdict : Verdict}
    (here : judged[n]? = some { row, verdict }) {c c₁ c₂ : Context} {o₁ : Outline}
    (judges : Ends (judge r o row) c verdict c₁)
    (settles : Ends (settle (o.moved row.indent) row verdict) c₁ o₁ c₂) :
    ∃ added, RowRead b judged n blocks o row verdict added ∧
      o₁ = (o.moved row.indent).settled row verdict ∧
      OpenAt judged (n + 1) o₁ (blocksAfter n (goingOn judged n blocks) verdict) ∧
      c₂.diagnostics = c.diagnostics ++ (o.warnings row.indent ++ added) := by
  obtain ⟨judges, added, explains, line, column, diagnostics⟩ :=
    judge_ends (permits row.number) (lines row.number) judges
  obtain ⟨rfl, nothing⟩ := settle_ends line column settles
  have indent : indentAt (judged.map Judgement.row) n = row.indent := by
    rw [indentAt, List.getElem?_map, here]
    rfl
  have stands := (opened.moved indent).1
  have fits := opened.fits here judges
  refine ⟨added, ⟨here, opened, stands, fits, explains⟩, rfl, stands.settled here fits, ?_⟩
  have reported := nothing.diagnostics
  rwa [List.append_nil, diagnostics] at reported

/-- The blocks that are open after the first rows do not depend on those that follow. -/
theorem Run.openAt {r : Registry} {c c' : Context} {first : List Judgement} {o : Outline}
    (run : Run r {} c first o c') (rest : List Judgement) : ∃ blocks, OpenAt (first ++ rest) first.length o blocks := by
  refine run.invariant (I := fun n o _ => ∃ blocks, OpenAt (first ++ rest) n o blocks)
    (fun n o c holds => holds) ?_ ⟨[], openAt_zero _⟩
  rintro n row verdict here o c c₁ o₁ c₂ ⟨blocks, opened⟩ judges settles
  have here : (first ++ rest)[n]? = some { row, verdict } := by
    rw [List.getElem?_append_left (List.getElem?_eq_some_iff.1 here).1, here]
  obtain ⟨-, -, -, after, -⟩ := opened.read (b := Bounds.none) (fun _ => rfl)
    (fun _ _ _ _ _ _ _ => Bounds.within_none _ _) here judges settles
  exact ⟨_, after⟩

/-- **What every row keeps holds after a run** from an empty outline. It may depend on the blocks that are open,
and on what was reported. -/
theorem Run.induction {r : Registry} {b : Nat → Bounds} (lines : ∀ line, (b line).line = line)
    (permits : ∀ line category, ∀ x ∈ r.candidates category,
      (b line).Permits x.definition.decide)
    {I : Nat → List Nat → Outline → List Diagnostic → Prop} {c c' : Context}
    (start : I 0 [] {} c.diagnostics)
    (step : ∀ {n blocks o row verdict added}, RowRead b judged n blocks o row verdict added →
      ∀ reported, I n blocks o reported →
        I (n + 1) (blocksAfter n (goingOn judged n blocks) verdict)
          ((o.moved row.indent).settled row verdict)
          (reported ++ (o.warnings row.indent ++ added)))
    (run : Run r {} c judged o c') :
    ∃ blocks, OpenAt judged judged.length o blocks ∧
      I judged.length blocks o c'.diagnostics := by
  refine run.invariant
    (I := fun n o c => ∃ blocks, OpenAt judged n o blocks ∧ I n blocks o c.diagnostics)
    (fun n o c holds => holds) ?_ ⟨[], openAt_zero judged, start⟩
  rintro n row verdict here o c c₁ o₁ c₂ ⟨blocks, opened, holds⟩ judges settles
  obtain ⟨added, known, rfl, after, reported⟩ := opened.read lines permits here judges settles
  rw [reported]
  exact ⟨_, after, step known _ holds⟩

/-- Only the last row may have opened a block that never had a line. -/
theorem OpenAt.warnings (h : OpenAt judged n o blocks) {indent : Nat} {w : Diagnostic}
    (mem : w ∈ o.warnings indent) :
    w.severity = .warning ∧ ∃ m j, n = m + 1 ∧ judged[m]? = some j ∧ w.line = j.row.number ∧
      w.column = j.row.start.column := by
  unfold Outline.warnings at mem
  obtain ⟨b, among, warns⟩ := List.mem_filterMap.1 mem
  have among : b.frame ∈ o.blocks.map OpenBlock.frame :=
    List.mem_map_of_mem ((List.takeWhile_sublist _).subset among)
  rw [h.frames] at among
  obtain ⟨i, inside, same⟩ := List.mem_map.1 among
  have child : b.childIndent = (blockAt judged n i).childIndent :=
    (congrArg OpenBlock.childIndent same).symm
  have span : b.span = (blockAt judged n i).span := (congrArg OpenBlock.span same).symm
  have header : b.header = nodeAt judged i := (congrArg OpenBlock.header same).symm
  unfold OpenBlock.warning? at warns
  split at warns
  next empty =>
    obtain ⟨node, found, rfl⟩ := Option.map_eq_some_iff.1 warns
    have last : ¬ i + 1 < n := by
      intro lt
      rw [child, blockAt, if_pos lt] at empty
      cases empty
    have lt := h.lt inside
    rw [header, nodeAt] at found
    obtain ⟨j, here, -⟩ := Option.bind_eq_some_iff.1 found
    have start : b.span = j.row.start := by
      rw [span, blockAt, here]
      rfl
    exact ⟨rfl, i, j, by omega, here, congrArg Span.line start, congrArg Span.column start⟩
  · cases warns

end Phrasebook.Script
