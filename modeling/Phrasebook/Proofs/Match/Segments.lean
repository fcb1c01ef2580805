import Phrasebook.Proofs.Match.Reading
import Phrasebook.Proofs.Match.Word
import Phrasebook.Proofs.Pattern.Segments

/-!
# Lines of words and integers

A pattern of words and slots for integers is matched against a line of the same words with integers in the slots.
Every literal fits where its words stand, unless one of them holds a letter with a small form of two letters. A slot
may end where its integer ends, and before that only behind a minus (`splitPoints_decimal`), which is turned down. So
the first ends that are not turned down are those of the integers, and `finds_segments` says that they are found.
-/

namespace Phrasebook.Text.Line

variable {l : Line} {pos : Nat} {text : List Char}

/-- **A literal fits where its text stands**, if none of its letters has a small form of several letters. -/
theorem Stands.matchFrom_small (spaced : Spaced text) (undotted : '\u0130' ∉ text) (h : l.Stands pos text) :
    l.matchFrom (text.flatMap lowerChar) pos = some (pos + text.length) := by
  induction text generalizing pos with
  | nil => rfl
  | cons c text ih =>
    rw [List.mem_cons, not_or] at undotted
    have rest := ih spaced.tail undotted.2 h.tail
    have shift : pos + 1 + text.length = pos + (c :: text).length := by
      rw [List.length_cons]
      omega
    by_cases space : c = ' '
    · subst space
      obtain ⟨d, more, rfl, -, solid⟩ := spaced.letter
      have skipped := h.skipBlank solid
      have small : lowerChar ' ' = [' '] := by decide
      rw [List.flatMap_cons, small, List.singleton_append, matchFrom_space, skipped, if_neg (by omega), rest, shift]
    · have solid : isBlank c = false := by
        rw [Bool.eq_false_iff]
        exact fun blank => space (spaced.solid c List.mem_cons_self blank)
      obtain ⟨d, small⟩ := lowerChar_eq_singleton (Ne.symm undotted.1)
      have own : lowerChar d = [d] := lowerChar_of_mem (small ▸ List.mem_singleton_self d)
      have letter : (d == ' ') = false := by
        rw [beq_eq_false_iff_ne]
        rintro rfl
        exact absurd (not_isBlank_of_mem_lowerChar solid (small ▸ List.mem_singleton_self ' ')) (by decide)
      have same : sameLetter c d = true := sameLetter_iff.2 (small.trans own.symm)
      rw [List.flatMap_cons, small, List.singleton_append]
      simp only [Line.matchFrom, letter, h.head, same, rest, Bool.false_eq_true, if_false, if_true, shift]

/-- Digits are one word. -/
theorem Stands.not_isBoundary_digits {digits : List Char} (h : l.Stands pos digits) (all : ∀ c ∈ digits, isDigit c = true)
    {i : Nat} (after : pos < i) (before : i < pos + digits.length) : l.isBoundary i = false := by
  have there {k : Nat} (inside : k < digits.length) : ∃ c, l.chars[pos + k]? = some c ∧ isWordChar c = true := by
    refine ⟨digits[k], ?_, isWordChar_of_isDigit (all _ (List.getElem_mem inside))⟩
    obtain ⟨rest, same⟩ := h
    rw [← Array.getElem?_toList, ← List.getElem?_drop, ← same]
    rw [List.getElem?_append_left inside, List.getElem?_eq_getElem inside]
  obtain ⟨k, rfl⟩ : ∃ k, i = pos + k + 1 := ⟨i - pos - 1, by omega⟩
  obtain ⟨c, left, wordLeft⟩ := there (k := k) (by omega)
  obtain ⟨d, right, wordRight⟩ := there (k := k + 1) (by omega)
  rw [← Nat.add_assoc] at right
  simp [isBoundary, wordBefore, wordAfter, left, right, wordLeft, wordRight]

end Phrasebook.Text.Line

namespace Phrasebook.Match
open Text Pattern Literal

section Extent

variable {l : Line} {follow : Follow} {start stop : Nat} {n : Int64}

/-- Within an integer a capture may end behind the minus only. -/
theorem slice_of_boundary (h : l.Stands start (decimal n)) {pos : Nat} (after : start < pos)
    (before : pos < start + (decimal n).length) (cuts : l.isBoundary pos = true) : l.slice start pos = ['-'] := by
  obtain ⟨digits, -, all, same | same⟩ := decimal_cases n
  · rw [same] at h before
    rw [h.not_isBoundary_digits all after before] at cuts
    cases cuts
  · rw [same] at h before
    have signed : l.Stands start (['-'] ++ digits) := h
    rcases Nat.eq_or_lt_of_le (show start + 1 ≤ pos from after) with rfl | after
    · exact signed.left.slice
    · have within : pos < start + 1 + digits.length := by
        rw [List.length_cons] at before
        omega
      rw [signed.right.not_isBoundary_digits all after within] at cuts
      cases cuts

/-- **The ends of a slot that an integer fills**: the end of the integer is one of them, and only a minus stands before
those that come first. -/
theorem splitPoints_decimal (h : l.Stands start (decimal n)) (begins : l.isBoundary start = true)
    (ends : l.isBoundary (start + (decimal n).length) = true)
    (reaches : ∃ pos, Reaches l follow start stop pos ∧ l.dropBlanks start pos = start + (decimal n).length) :
    ∃ before after, splitPoints l follow start stop = before ++ (start + (decimal n).length) :: after ∧
      ∀ x ∈ before, l.slice start x = ['-'] ∧ x ≤ stop := by
  have positive := List.length_pos_iff.2 (decimal_ne_nil n)
  have mem : start + (decimal n).length ∈ splitPoints l follow start stop := by
    obtain ⟨pos, reach, dropped⟩ := reaches
    have inside : start + (decimal n).length ≤ stop := by
      rw [← dropped]
      exact Nat.le_trans (l.dropBlanks_le start pos) reach.le
    exact mem_splitPoints.2 ⟨⟨by omega, begins⟩, ⟨by omega, ends⟩, pos, reach, dropped⟩
  obtain ⟨before, after, split⟩ := List.append_of_mem mem
  refine ⟨before, after, split, fun x early => ?_⟩
  have among : x ∈ splitPoints l follow start stop := by
    rw [split]
    exact List.mem_append_left _ early
  have sorted := @pairwise_splitPoints l follow start stop
  rw [split] at sorted
  have less := (List.pairwise_append.1 sorted).2.2 x early _ List.mem_cons_self
  obtain ⟨-, ⟨later, cuts⟩, -⟩ := mem_splitPoints.1 among
  exact ⟨slice_of_boundary h later less cuts, (bounds_of_mem_splitPoints among).2⟩

/-- Nothing is open behind an integer. -/
theorem bracketsAt_decimal (h : l.Stands start (decimal n)) :
    bracketsAt l start (start + (decimal n).length) = {} := by
  have idle (text : List Char) (all : ∀ c ∈ text, c ∉ ['"', '(', ')', '{', '}']) (b : Brackets) :
      text.foldl Brackets.next b = b := by
    induction text with
    | nil => rfl
    | cons c text ih =>
      rw [List.foldl_cons, b.next_other (all c List.mem_cons_self)]
      exact ih fun d mem => all d (List.mem_cons_of_mem c mem)
  rw [bracketsAt, h.slice]
  have other : ['"', '(', ')', '{', '}'].all (fun c => !isDigit c && c != '-') = true := by decide
  refine idle _ (fun c mem sign => ?_) {}
  have signs := List.all_eq_true.1 other c sign
  simp only [Bool.and_eq_true, Bool.not_eq_true', bne_iff_ne] at signs
  exact not_mem_decimal signs.1 signs.2 mem

open Segment in
/-- What follows a segment is the next one. -/
theorem firstOfItems_tail (after : Follow) (index : Nat) (s t : Segment) (rest : List Segment) :
    ∃ later, Element.firstOfItems after (elements index (s :: t :: rest)).tail =
      (t.element (index + (integersOf [s]).length)).first later := by
  obtain ⟨more, same⟩ := elements_cons (index + (integersOf [s]).length) t rest
  refine ⟨Element.firstOfItems after more, ?_⟩
  show Element.firstOfItems after (.space :: elements (index + (integersOf [s]).length) (t :: rest)) = _
  rw [same]
  rfl

open Segment in
/-- A slot may reach to the end of its integer, if the line goes on as the pattern does. -/
theorem reaches_decimal {segments : List Segment} (merged : Merged (.integer n :: segments)) (index : Nat)
    (undotted : ∀ text, word text ∈ segments → '\u0130' ∉ text)
    (here : l.Stands start (lineOf (.integer n :: segments)))
    (whole : start + (lineOf (.integer n :: segments)).length = l.size) :
    l.isBoundary (start + (decimal n).length) = true ∧ ∃ pos,
      Reaches l (Element.firstOfItems { canEnd := true } (elements index (.integer n :: segments)).tail) start l.size pos ∧
        l.dropBlanks start pos = start + (decimal n).length := by
  obtain ⟨first, last, shape, solid⟩ := decimal_ends n
  have text' : l.Stands start (first ++ [last]) := by
    obtain ⟨more, same⟩ := lineOf_cons (.integer n) segments
    rw [same] at here
    exact shape ▸ here.left
  have dropped := text'.dropBlanks solid
  rw [← shape] at dropped
  cases segments with
  | nil =>
    have end_ : start + (decimal n).length = l.size := whole
    rw [end_] at dropped ⊢
    exact ⟨l.isBoundary_size, l.size, .inr ⟨rfl, rfl⟩, dropped⟩
  | cons t rest =>
    rw [lineOf_cons_cons] at here
    have number : l.Stands start (decimal n) := here.left
    have behind : l.Stands (start + (decimal n).length) (' ' :: lineOf (t :: rest)) := here.right
    have blank : l.BlankAt (start + (decimal n).length) := Line.blankAt_iff.2 ⟨' ', behind.head, by decide⟩
    have edge := Line.isBoundary_of_blankAt blank
    have positive := List.length_pos_iff.2 (decimal_ne_nil n)
    have next := behind.tail
    obtain ⟨later, follow⟩ := firstOfItems_tail { canEnd := true } index (.integer n) t rest
    rw [follow]
    refine ⟨edge, ?_⟩
    cases t with
    | integer m =>
      refine ⟨_, .inl ⟨by omega, behind.lt_size, behind.lt_size, ?_, ?_⟩, dropped⟩
      · rw [bracketsAt_decimal number]
        rfl
      · simp [stopsBefore, element, Element.first, edge]
    | word text =>
      have phrase := merged.tail.phrases text List.mem_cons_self
      obtain ⟨c, more, starts, letter⟩ := phrase.starts
      have here : l.Stands (start + (decimal n).length + 1) text := by
        obtain ⟨more, same⟩ := lineOf_cons (.word text) rest
        rw [same] at next
        exact next.left
      have fits : l.matchFrom (text.flatMap lowerChar) (start + (decimal n).length + 1) =
          some (start + (decimal n).length + 1 + text.length) :=
        here.matchFrom_small phrase.toSpaced (undotted text List.mem_cons_self)
      have cuts : l.isBoundary (start + (decimal n).length + 1) = true := Line.isBoundary_succ blank
      rw [starts] at here
      have closed : bracketsAt l start (start + (decimal n).length + 1) = {} := by
        rw [bracketsAt_succ (Nat.le_add_right _ _) behind.head, bracketsAt_decimal number]
        rfl
      refine ⟨_, .inl ⟨by omega, here.lt_size, here.lt_size, by rw [closed]; rfl, ?_⟩, ?_⟩
      · simp [stopsBefore, element, Element.first, literalStarts, cuts, here.skipBlanks letter, fits]
      · have drop := text'.dropBlank solid (shape ▸ blank)
        rwa [← shape] at drop

end Extent

section Search

variable {ρ α : Type} {line : Line} {index : Nat}

/-- Nothing is remembered for the slots from a number on but that a minus was turned down. -/
def Memory.Clear (line : Line) (index : Nat) (memory : Memory ρ α) : Prop :=
  ∀ slot start stop outcome, memory.answers.get? (slot, start, stop) = some outcome →
    slot < index ∨ line.slice start stop = ['-'] ∧ ∃ reason, outcome = .rejected reason

theorem Memory.Clear.fail {memory : Memory ρ α} (clear : memory.Clear line index) (pos : Nat) (reason : Reason ρ) :
    (memory.fail pos reason).Clear line index := by
  have kept : (memory.fail pos reason).answers = memory.answers := by
    unfold Memory.fail
    split
    · rfl
    · split <;> rfl
  unfold Memory.Clear
  rw [kept]
  exact clear

/-- An answer more is remembered. -/
theorem Memory.Clear.insert {memory : Memory ρ α} (clear : memory.Clear line index) {start stop : Nat}
    {outcome : Outcome ρ α} {index' : Nat} (later : index ≤ index')
    (new : index < index' ∨ line.slice start stop = ['-'] ∧ ∃ reason, outcome = .rejected reason) :
    Memory.Clear line index' { memory with answers := memory.answers.insert (index, start, stop) outcome } := by
  intro slot low high known found
  rw [Table.get?_insert] at found
  split at found
  next same =>
    cases same
    cases found
    exact new
  next => exact (clear slot low high known found).imp (fun less => Nat.lt_of_lt_of_le less later) id

/-- From every state that is steady a search ends in such a state, with a match that is as it should be. -/
def Finds (steady : Context → Prop) (line : Line) (index : Nat) (good : Found α → Prop)
    (x : Search Parsing ρ α) : Prop :=
  ∀ memory c, memory.Clear line index → steady c → ∃ found memory' c', good found ∧ steady c' ∧
    Ends (x memory) c (some found, memory') c'

/-- Integers are read for slots, and a minus is turned down. -/
structure Task.ReadsIntegers (task : Task Parsing ρ α) (steady : Context → Prop) (reads : Int64 → α → Prop) :
    Prop where
  integer : ∀ p ∈ task.pattern.placeholders, ∀ n start, task.line.Stands start (decimal n) → ∀ c, steady c →
    ∃ value c', reads n value ∧ steady c' ∧
      Ends (task.resolve p start (start + (decimal n).length)) c (.found value) c'
  minus : ∀ p ∈ task.pattern.placeholders, ∀ start stop, stop ≤ task.line.size →
    task.line.slice start stop = ['-'] → ∀ c, steady c →
      ∃ reason c', steady c' ∧ Ends (task.resolve p start stop) c (.rejected reason) c'

variable {steady : Context → Prop} {good : Found α → Prop} {reads : Int64 → α → Prop} {task : Task Parsing ρ α}

/-- A minus is turned down, and the search goes on. -/
theorem finds_minus (answers : task.ReadsIntegers steady reads) {p : Placeholder}
    (among : p ∈ task.pattern.placeholders) {start stop : Nat} (inside : stop ≤ task.line.size)
    (minus : task.line.slice start stop = ['-']) (next : α → Search Parsing ρ α) {y : Search Parsing ρ α}
    (other : Finds steady task.line index good y) :
    Finds steady task.line index good ((task.filling index p start stop next).or y) := by
  intro memory c clear calm
  obtain ⟨reason, memory', c', clear', calm', answered⟩ : ∃ reason memory' c', memory'.Clear task.line index ∧
      steady c' ∧ Ends (task.answer memory index p start stop) c (.rejected reason, memory') c' := by
    unfold Task.answer
    split
    next outcome known =>
      obtain less | ⟨-, reason, rfl⟩ := clear _ _ _ _ known
      · omega
      · exact ⟨reason, memory, c, clear, calm, rfl⟩
    next =>
      obtain ⟨reason, c', calm', answer⟩ := answers.minus p among start stop inside minus c calm
      exact ⟨reason, _, c', clear.insert (Nat.le_refl index) (.inr ⟨minus, reason, rfl⟩), calm', answer.bind rfl⟩
  obtain ⟨found, memory'', c'', holds, calm'', ends⟩ := other (memory'.fail start (.rejected reason)) c'
    (clear'.fail _ _) calm'
  have first : Ends (task.filling index p start stop next memory) c (none, memory'.fail start (.rejected reason)) c' :=
    answered.bind rfl
  exact ⟨found, memory'', c'', holds, calm'', first.bind ends⟩

/-- An integer is read, and the search goes on behind it. -/
theorem finds_integer (answers : task.ReadsIntegers steady reads) {p : Placeholder}
    (among : p ∈ task.pattern.placeholders) {start : Nat} {n : Int64} (here : task.line.Stands start (decimal n))
    {next : α → Search Parsing ρ α}
    (onward : ∀ value, reads n value → Finds steady task.line (index + 1) good (next value)) (y : Search Parsing ρ α) :
    Finds steady task.line index good ((task.filling index p start (start + (decimal n).length) next).or y) := by
  intro memory c clear calm
  obtain ⟨value, c', read, calm', answer⟩ := answers.integer p among n start here c calm
  have unknown : memory.answers.get? (index, start, start + (decimal n).length) = none := by
    cases known : memory.answers.get? (index, start, start + (decimal n).length) with
    | none => rfl
    | some outcome =>
      obtain less | ⟨minus, -⟩ := clear _ _ _ _ known
      · omega
      · rw [here.slice] at minus
        exact absurd minus (decimal_ne_minus n)
  have answered : Ends (task.answer memory index p start (start + (decimal n).length)) c (.found value,
      { memory with answers := memory.answers.insert (index, start, start + (decimal n).length) (.found value) }) c' := by
    simp only [Task.answer, unknown]
    exact answer.bind rfl
  obtain ⟨found, memory', c'', holds, calm'', ends⟩ := onward value read _ c'
    (clear.insert (Nat.le_succ index) (.inl (Nat.lt_succ_self index))) calm'
  have first : Ends (task.filling index p start (start + (decimal n).length) next memory) c (some found, memory') c'' :=
    answered.bind ends
  exact ⟨found, memory', c'', holds, calm'', first.bind rfl⟩

/-- **A slot is filled with its integer**, which is read once what comes before was turned down. -/
theorem finds_slot (answers : task.ReadsIntegers steady reads) {p : Placeholder}
    (slot : task.pattern.placeholders[index]? = some p) (needed : p.nullable = false) {n : Int64} {w : Way α}
    {start : Nat} (here : task.line.Stands start (decimal n)) (skips : task.region.skipBlanks w.pos = start)
    {before later : List Nat} {follow : Follow}
    (split : splitPoints task.region follow start task.stop = before ++ (start + (decimal n).length) :: later)
    (early : ∀ x ∈ before, task.line.slice start x = ['-'] ∧ x ≤ task.line.size) (pc : Nat) {next : Onward Parsing ρ α}
    (onward : ∀ value, reads n value → Finds steady task.line (index + 1) good
      (next { w with pos := start + (decimal n).length, captures := w.captures ++ [.argument index (some value)] })) :
    Finds steady task.line index good (task.readPlaceholder pc follow index w next) := by
  have among := List.mem_of_getElem? slot
  have ends : task.endsOf p follow start = (before ++ (start + (decimal n).length) :: later).map some := by
    simp [Task.endsOf, split, needed]
  have some_ : ((before ++ (start + (decimal n).length) :: later).map some).isEmpty = false := by simp
  unfold Task.readPlaceholder
  simp only [slot, skips, ends, some_, Bool.false_eq_true, if_false]
  clear split ends some_
  unfold Task.slotEnds
  induction before with
  | nil => exact finds_integer answers among here onward _
  | cons x before ih =>
    obtain ⟨minus, inside⟩ := early x List.mem_cons_self
    exact finds_minus answers among inside minus _ (ih fun y mem => early y (List.mem_cons_of_mem x mem))

/-- What a way picks up for slots that are numbered from some number on. -/
def argumentsFrom (index : Nat) (values : List α) : List (Capture α) :=
  (values.zipIdx index).map fun (value, slot) => .argument slot (some value)

theorem argumentsFrom_append (index : Nat) (values values' : List α) :
    argumentsFrom index (values ++ values') =
      argumentsFrom index values ++ argumentsFrom (index + values.length) values' := by
  rw [argumentsFrom, List.zipIdx_append, List.map_append]
  rfl

/-- All of a line is matched, and slots need to be filled. -/
structure Task.Whole (task : Task Parsing ρ α) : Prop where
  region : task.region = task.line
  stop : task.stop = task.line.size
  needed : ∀ p ∈ task.pattern.placeholders, p.nullable = false

open Segment in
/-- The first segment of some is read. -/
theorem finds_segment (answers : task.ReadsIntegers steady reads) (all : task.Whole) {s : Segment}
    {rest : List Segment} (merged : Merged (s :: rest)) (undotted : ∀ text, word text ∈ s :: rest → '\u0130' ∉ text)
    (enough : index + (integersOf [s]).length ≤ task.pattern.placeholders.length) {w : Way α} {start : Nat}
    (here : task.line.Stands start (lineOf (s :: rest)))
    (whole : start + (lineOf (s :: rest)).length = task.line.size)
    (skips : task.line.skipBlanks w.pos = start) (cuts : task.line.isBoundary start = true) (pc : Nat)
    {next : Onward Parsing ρ α}
    (onward : ∀ values, List.Forall₂ reads (integersOf [s]) values →
      Finds steady task.line (index + (integersOf [s]).length) good
        (next { w with pos := start + s.line.length, captures := w.captures ++ argumentsFrom index values })) :
    Finds steady task.line index good
      (task.read pc (Element.firstOfItems { canEnd := true } (elements index (s :: rest)).tail) w next
        (s.element index)) := by
  have first : task.line.Stands start s.line := by
    obtain ⟨more, same⟩ := lineOf_cons s rest
    rw [same] at here
    exact here.left
  cases s with
  | word text =>
    have fits : task.region.matchLiteral w.pos (text.flatMap lowerChar) = some (start + text.length) := by
      rw [Line.matchLiteral, all.region, skips]
      exact first.matchFrom_small (merged.phrases text List.mem_cons_self).toSpaced (undotted text List.mem_cons_self)
    have found := onward [] .nil
    rw [argumentsFrom, List.zipIdx_nil, List.map_nil, List.append_nil] at found
    rw [element, Task.read, Task.readLiteral, fits]
    exact found
  | integer n =>
    have inside : index < task.pattern.placeholders.length := enough
    have slot := List.getElem?_eq_getElem inside
    obtain ⟨ends, reaches⟩ := reaches_decimal merged index
      (fun text mem => undotted text (List.mem_cons_of_mem _ mem)) here whole
    obtain ⟨before, later, split, early⟩ := splitPoints_decimal first cuts ends reaches
    have split' : splitPoints task.region (Element.firstOfItems { canEnd := true }
        (elements index (.integer n :: rest)).tail) start task.stop = before ++ (start + (decimal n).length) :: later := by
      rw [all.region, all.stop]
      exact split
    have skips' : task.region.skipBlanks w.pos = start := by
      rw [all.region]
      exact skips
    rw [element, Task.read]
    apply finds_slot answers slot (all.needed _ (List.mem_of_getElem? slot)) first skips' split' early pc
    intro value read
    exact onward [value] (.cons read .nil)

open Segment in
/-- **A line of words and integers is read along the pattern of its segments.** -/
theorem finds_segments (answers : task.ReadsIntegers steady reads) (all : task.Whole) {segments : List Segment}
    (some_ : segments ≠ []) (merged : Merged segments) (undotted : ∀ text, word text ∈ segments → '\u0130' ∉ text)
    (enough : index + (integersOf segments).length ≤ task.pattern.placeholders.length) {w : Way α} {start : Nat}
    (here : task.line.Stands start (lineOf segments)) (whole : start + (lineOf segments).length = task.line.size)
    (skips : task.line.skipBlanks w.pos = start) (cuts : task.line.isBoundary start = true) (pc : Nat)
    {next : Onward Parsing ρ α}
    (onward : ∀ values, List.Forall₂ reads (integersOf segments) values →
      Finds steady task.line (index + (integersOf segments).length) good
        (next { w with pos := task.line.size, captures := w.captures ++ argumentsFrom index values })) :
    Finds steady task.line index good (task.readItems pc { canEnd := true } w next (elements index segments)) := by
  induction segments generalizing index w start pc with
  | nil => exact absurd rfl some_
  | cons s rest ih =>
    cases rest with
    | nil =>
      have end_ : start + s.line.length = task.line.size := whole
      rw [elements, Task.readItems]
      apply finds_segment answers all merged undotted enough here whole skips cuts pc
      intro values read
      rw [Task.readItems, end_]
      exact onward values read
    | cons t rest =>
      have count : (integersOf (s :: t :: rest)).length = (integersOf [s]).length + (integersOf (t :: rest)).length := by
        rw [integersOf_cons, List.length_append]
      rw [elements_cons_cons, Task.readItems]
      apply finds_segment answers all merged undotted (by omega) here whole skips cuts pc
      intro values read
      -- behind the segment stands one blank, and the boundary is there
      rw [lineOf_cons_cons] at here whole
      have behind : task.line.Stands (start + s.line.length) (' ' :: lineOf (t :: rest)) := here.right
      obtain ⟨c, more, starts, solid⟩ := lineOf_starts (List.cons_ne_nil t rest) merged.tail
      have skipped : task.line.skipBlanks (start + s.line.length) = start + s.line.length + 1 := by
        rw [starts] at behind
        exact behind.skipBlank solid
      have edge : task.line.isBoundary (start + s.line.length + 1) = true :=
        Line.isBoundary_succ (Line.blankAt_iff.2 ⟨' ', behind.head, by decide⟩)
      have size : start + s.line.length + 1 + (lineOf (t :: rest)).length = task.line.size := by
        rw [← whole, List.length_append, List.length_cons]
        omega
      rw [Task.readItems, Task.read, Task.readSpace]
      simp only [all.region, skipped, edge, if_true]
      apply ih (List.cons_ne_nil t rest) merged.tail (fun text mem => undotted text (List.mem_cons_of_mem s mem))
        (by omega) behind.tail size skipped edge
      intro values' read'
      have length : values.length = (integersOf [s]).length := read.length_eq.symm
      have found := onward (values ++ values') (by rw [integersOf_cons]; exact List.rel_append read read')
      rw [argumentsFrom_append, length, count, ← Nat.add_assoc] at found
      rw [List.append_assoc]
      exact found

/-- The value of a slot among those that were picked up. -/
theorem argumentOf_argumentsFrom (slot : Nat) (values : List α) :
    argumentOf slot (argumentsFrom 0 values) = values[slot]? := by
  induction values using List.reverseRecOn with
  | nil => rfl
  | append_singleton values value ih =>
    have last : argumentsFrom (0 + values.length) [value] = [.argument values.length (some value)] := by
      rw [Nat.zero_add]
      rfl
    rw [argumentsFrom_append, last, argumentOf, List.foldl_append]
    show (if values.length == slot then some value else argumentOf slot (argumentsFrom 0 values)) = _
    rw [ih, List.getElem?_append]
    grind

theorem arguments_ofTrail (mark : Int64) (values : List α) :
    (Found.ofTrail values.length mark (argumentsFrom 0 values)).arguments = values.map some := by
  refine List.ext_getElem (by simp [Found.ofTrail]) fun i inside inside' => ?_
  rw [List.length_map] at inside'
  simp [Found.ofTrail, argumentOf_argumentsFrom, inside']

/-- Slots are filled with integers as they are read. -/
def IntegersFill (reads : Int64 → α → Prop) (integers : List Int64) (arguments : List (Option α)) : Prop :=
  List.Forall₂ (fun n argument => ∃ value, argument = some value ∧ reads n value) integers arguments

theorem integersFill_map {reads : Int64 → α → Prop} {integers : List Int64} {values : List α}
    (read : List.Forall₂ reads integers values) : IntegersFill reads integers (values.map some) :=
  List.forall₂_map_right_iff.2 (read.imp fun _ value read => ⟨value, rfl, read⟩)

end Search

section Run

variable {ρ α : Type} {pattern : Pattern} {segments : List Segment} {steady : Context → Prop} {reads : Int64 → α → Prop}
  {resolve : Placeholder → Nat → Nat → Parsing (Outcome ρ α)}

open Segment in
/-- **A pattern of words and slots matches the line of its segments**, and the slots are filled with the integers in
their order. -/
theorem ends_run_segments (sound : pattern.Sound) (root : pattern.root = .sequence (elements 0 segments))
    (count : pattern.placeholders.length = (integersOf segments).length)
    (needed : ∀ p ∈ pattern.placeholders, p.nullable = false) (some_ : segments ≠ []) (merged : Merged segments)
    (undotted : ∀ text, word text ∈ segments → '\u0130' ∉ text) {line : Line} (here : line.Stands 0 (lineOf segments))
    (whole : (lineOf segments).length = line.size)
    (answers : (restTask pattern line 0 resolve).ReadsIntegers steady reads) {c : Context} (calm : steady c) :
    ∃ found c', IntegersFill reads (integersOf segments) found.arguments ∧ steady c' ∧
      Ends (Match.run pattern line 0 line.size resolve) c (.ok found) c' := by
  let task := restTask pattern line 0 resolve
  have run : Match.run pattern line 0 line.size resolve =
      (task.read 0 { canEnd := true } { pos := 0 } task.finish pattern.root).otherwise
        (fun memory => pure (.error (memory.failure 0))) {} := by
    have read := task.loop_eq_read sound
    unfold Match.run runWith
    dsimp only
    rw [line.before_size]
    exact read
  obtain ⟨d, more, starts, solid⟩ := lineOf_starts some_ merged
  have skips : line.skipBlanks 0 = 0 := by
    rw [starts] at here
    exact here.skipBlanks solid
  have clear : Memory.Clear line 0 ({} : Memory ρ α) := by
    intro slot start stop outcome known
    rw [Table.get?_empty] at known
    cases known
  have finds : Finds steady line 0 (fun found => IntegersFill reads (integersOf segments) found.arguments)
      (task.readItems 0 { canEnd := true } { pos := 0 } task.finish (elements 0 segments)) := by
    apply finds_segments (w := { pos := 0 }) answers ⟨rfl, rfl, needed⟩ some_ merged undotted
      (by rw [Nat.zero_add]; exact count.ge) here (by rw [Nat.zero_add]; exact whole) skips rfl
    intro values read memory c _ calm
    have length : pattern.placeholders.length = values.length := count.trans read.length_eq
    have ended : line.size ≤ line.skipBlanks line.size := Nat.le_of_eq line.skipBlanks_size.symm
    have done : task.finish { pos := line.size, captures := argumentsFrom 0 values } =
        .found (.ofTrail pattern.placeholders.length 0 (argumentsFrom 0 values)) := if_pos ended
    rw [length] at done
    refine ⟨.ofTrail values.length 0 (argumentsFrom 0 values), memory, c, ?_, calm, ?_⟩
    · show IntegersFill reads _ _
      rw [arguments_ofTrail]
      exact integersFill_map read
    · show Ends (task.finish { pos := line.size, captures := argumentsFrom 0 values } memory) c _ c
      rw [done]
      rfl
  obtain ⟨found, memory, c', holds, calm', ends⟩ := finds {} c clear calm
  refine ⟨found, c', holds, calm', ?_⟩
  rw [run, root, Task.read]
  exact ends.bind rfl

end Run

end Phrasebook.Match
