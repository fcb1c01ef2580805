import Phrasebook.Proofs.Match.SplitPoints
import Phrasebook.Proofs.Parse.Items

/-!
# Lists are cut at their separators

A stretch that is split into the items of a list is the items with one separator between each two of them, and
nothing besides. Every separator stands outside of quotes and brackets, and one that starts with a word is no
part of a longer word.
-/

namespace Phrasebook.Text.Line

variable {l : Line} {i j k : Nat} {c : Char}

/-- A stretch is what stands up to a place within it and what stands behind that place. -/
theorem slice_append (l : Line) (first : i ≤ k) (second : k ≤ j) : l.slice i k ++ l.slice k j = l.slice i j := by
  simp only [slice, Array.toList_extract, List.extract_eq_take_drop]
  rw [show j - i = k - i + (j - k) by omega, List.take_add, List.drop_drop, show i + (k - i) = k by omega]

/-- The first character of a stretch. -/
theorem slice_cons (there : l.chars[i]? = some c) (some_ : i < j) : l.slice i j = c :: l.slice (i + 1) j := by
  rw [← l.slice_append (Nat.le_succ i) some_, l.slice_succ (Nat.le_refl i) there, l.slice_self]
  rfl

/-- Only blanks are skipped. -/
theorem isBlank_of_mem_skipped (mem : c ∈ l.slice i (l.skipBlanks i)) : isBlank c = true := by
  obtain ⟨n, there⟩ := List.mem_iff_getElem?.1 mem
  rw [l.getElem?_slice] at there
  split at there
  next before =>
    obtain ⟨d, same, blank⟩ := blankAt_iff.1 (blankAt_of_lt_skipBlanks (l := l) (i := i) (k := i + n) (by omega)
      (by omega))
    cases there.symm.trans same
    exact blank
  next => cases there

end Phrasebook.Text.Line

namespace Phrasebook.Parse
open Text Pattern

/-- The quotes and brackets that are open behind a text. -/
structure Enclosure where
  quoted : Bool := false
  depth : Nat := 0
deriving DecidableEq, Repr

namespace Enclosure

/-- A quote starts or ends quotes. A bracket counts outside of them, and one that closes nothing does not. -/
def next (e : Enclosure) (c : Char) : Enclosure :=
  if c == '"' then { e with quoted := !e.quoted }
  else if e.quoted then e
  else if c == '(' || c == '{' then { e with depth := e.depth + 1 }
  else if c == ')' || c == '}' then { e with depth := e.depth - 1 }
  else e

/-- What is open behind one more text. -/
def after (e : Enclosure) (text : List Char) : Enclosure :=
  text.foldl next e

theorem after_append (e : Enclosure) (text more : List Char) : e.after (text ++ more) = (e.after text).after more :=
  List.foldl_append

end Enclosure

/-- A text is a separator as it may be written: in any letter case, and with any blanks for a space. -/
inductive Spells : List Char → List Char → Prop where
  | nil : Spells [] []
  | space {run text separator : List Char} (some_ : run ≠ []) (blank : ∀ c ∈ run, isBlank c = true)
    (rest : Spells text separator) : Spells (run ++ text) (' ' :: separator)
  | letter {c d : Char} {text separator : List Char} (solid : c ≠ ' ') (same : sameLetter d c = true)
    (rest : Spells text separator) : Spells (d :: text) (c :: separator)

theorem Spells.ne_nil {text separator : List Char} (h : Spells text separator) (some_ : separator ≠ []) :
    text ≠ [] := by
  cases h with
  | nil => exact absurd rfl some_
  | space run => exact List.append_ne_nil_of_left_ne_nil run _
  | letter => exact List.cons_ne_nil _ _

/-- The text that a literal is found at is a spelling of it. -/
theorem spells_of_matchFrom {l : Line} {literal : List Char} {i j : Nat} (found : l.matchFrom literal i = some j) :
    Spells (l.slice i j) literal := by
  induction literal generalizing i with
  | nil =>
    cases found
    rw [l.slice_self]
    exact .nil
  | cons c literal ih =>
    simp only [Line.matchFrom] at found
    split at found
    next space =>
      obtain rfl : c = ' ' := beq_iff_eq.1 space
      split at found
      · cases found
      next moved =>
        have ahead := l.le_skipBlanks i
        have moved : i < l.skipBlanks i := by
          have other := ne_of_beq_false (Bool.eq_false_iff.2 moved)
          omega
        have inside : i < l.size :=
          Line.lt_size_of_blankAt (Line.blankAt_of_lt_skipBlanks (Nat.le_refl i) moved)
        have run : l.slice i (l.skipBlanks i) ≠ [] := by
          rw [Line.slice_cons (Array.getElem?_eq_getElem inside) moved]
          exact List.cons_ne_nil _ _
        rw [← l.slice_append ahead (Line.le_of_matchFrom found)]
        exact .space run (fun c mem => Line.isBlank_of_mem_skipped mem) (ih found)
    next solid =>
      split at found
      next d there =>
        split at found
        next same =>
          rw [Line.slice_cons there (Line.le_of_matchFrom found)]
          exact .letter (fun space => solid (beq_iff_eq.2 space)) same (ih found)
        next => cases found
      next => cases found

/-- A separator stands between two places of a line: nothing else stands there, and if it starts with a word, it
neither continues a word nor is continued by one. -/
structure Separates (l : Line) (separators : List String) (pos after : Nat) (separator : String) : Prop where
  among : separator ∈ separators
  spells : Spells (l.slice pos after) separator.toList
  solid : ∀ c ∈ (l.slice pos after).head?, isBlank c = false
  edges : separator.toList.head?.any isWordChar = true → l.isBoundary pos = true ∧ l.isBoundary after = true

variable {l : Line} {separators : List String} {start stop pos after : Nat} {separator : String}
  {items : List (Nat × Nat)} {used : List String} {conjunction : Conjunction}

theorem separates_of_separatorAt? {itemStart : Nat}
    (found : separatorAt? l itemStart pos separators = some (separator, after)) :
    Separates l separators pos after separator := by
  induction separators with
  | nil => cases found
  | cons first rest ih =>
    have later (found : separatorAt? l itemStart pos rest = some (separator, after)) :
        Separates l (first :: rest) pos after separator :=
      { ih found with among := List.mem_cons_of_mem first (ih found).among }
    simp only [separatorAt?] at found
    split at found
    · exact later found
    next starts =>
    split at found
    · exact later found
    next matched =>
    split at found
    · exact later found
    next fits =>
      cases found
      simp only [Bool.or_eq_true, not_or, bne_iff_ne, ne_eq, Decidable.not_not, Bool.and_eq_true, Bool.not_eq_true',
        not_and, Bool.not_eq_false] at starts fits
      rw [Line.matchLiteral, fits.1] at matched
      refine ⟨List.mem_cons_self, spells_of_matchFrom matched, fun c mem => ?_, fun word => ?_⟩
      · have unblank := l.not_blankAt_skipBlanks pos
        rw [fits.1] at unblank
        rw [List.head?_eq_getElem?, l.getElem?_slice] at mem
        split at mem
        · exact Bool.eq_false_iff.2 fun blank => unblank (Line.blankAt_iff.2 ⟨c, mem, blank⟩)
        · cases mem
      · exact ⟨(starts word).1, fits.2 word⟩

/-- A separator that holds something takes up room. -/
theorem Separates.lt (h : Separates l separators pos after separator) (some_ : separator ≠ "") : pos < after := by
  have text := h.spells.ne_nil fun none => some_ (String.toList_eq_nil_iff.1 none)
  rw [← List.length_pos_iff, l.length_slice] at text
  omega

/-- From a place on, a line is cut into items at separators that stand outside of the quotes and brackets of the
items before them. -/
inductive Cut (l : Line) (separators : List String) (stop : Nat) : Nat → List (Nat × Nat) → List String → Prop where
  | last {start : Nat} (full : isBlankText (l.slice start stop) = false) :
    Cut l separators stop start [(start, stop)] []
  | next {start pos after : Nat} {separator : String} {items : List (Nat × Nat)} {used : List String}
    (full : isBlankText (l.slice start pos) = false) (top : Enclosure.after {} (l.slice start (pos + 1)) = {})
    (separates : Separates l separators pos after separator) (rest : Cut l separators stop after items used) :
    Cut l separators stop start ((start, pos) :: items) (separator :: used)

namespace Cut

theorem count (h : Cut l separators stop start items used) : items.length = used.length + 1 := by
  induction h with
  | last => rfl
  | next _ _ _ _ ih => rw [List.length_cons, ih, List.length_cons]

theorem full (h : Cut l separators stop start items used) :
    ∀ item ∈ items, isBlankText (l.slice item.1 item.2) = false := by
  induction h with
  | last full => exact List.forall_mem_singleton.2 full
  | next full _ _ _ ih => exact List.forall_mem_cons.2 ⟨full, ih⟩

/-- The first item starts at the place itself. -/
theorem first (h : Cut l separators stop start items used) : items.head?.map Prod.fst = some start := by
  cases h <;> rfl

/-- The last item goes up to the end. -/
theorem last_stop (h : Cut l separators stop start items used) : items.getLast?.map Prod.snd = some stop := by
  induction h with
  | last => rfl
  | next _ _ _ rest ih =>
    obtain ⟨item, items, rfl⟩ := List.exists_cons_of_length_eq_add_one rest.count
    rwa [List.getLast?_cons_cons]

section Order

variable (some_ : ∀ separator ∈ separators, separator ≠ "")
include some_

theorem lt (h : Cut l separators stop start items used) : start < stop := by
  induction h with
  | last full => exact lt_of_slice (Bool.eq_false_iff.1 full)
  | next full _ separates _ ih =>
    have item := lt_of_slice (Bool.eq_false_iff.1 full)
    have separator := separates.lt (some_ _ separates.among)
    omega

/-- No item starts before the place from which the line is cut. -/
theorem le_of_mem (h : Cut l separators stop start items used) : ∀ item ∈ items, start ≤ item.1 := by
  induction h with
  | last => exact List.forall_mem_singleton.2 (Nat.le_refl _)
  | next full _ separates _ ih =>
    have item := lt_of_slice (Bool.eq_false_iff.1 full)
    have separator := separates.lt (some_ _ separates.among)
    refine List.forall_mem_cons.2 ⟨Nat.le_refl _, fun later mem => ?_⟩
    have behind := ih later mem
    omega

/-- Every item ends before the next one starts. -/
theorem ordered (h : Cut l separators stop start items used) : items.Pairwise fun a b => a.2 < b.1 := by
  induction h with
  | last => exact List.pairwise_singleton _ _
  | next _ _ separates rest ih =>
    refine List.pairwise_cons.2 ⟨fun later mem => ?_, ih⟩
    exact Nat.lt_of_lt_of_le (separates.lt (some_ _ separates.among)) (rest.le_of_mem some_ later mem)

/-- A line that is cut where only the text before the end is looked at is cut alike as a whole. No separator
stands at the end, so it makes no difference what follows there. -/
theorem of_before (h : Cut (l.before stop) separators stop start items used) :
    Cut l separators stop start items used := by
  induction h with
  | last full => exact .last (by rwa [l.slice_before _ (Nat.le_refl _)] at full)
  | @next start pos after separator items used full top separates rest ih =>
    have past := separates.lt (some_ _ separates.among)
    have inside := rest.lt some_
    rw [l.slice_before start (by omega)] at full top
    have same := l.slice_before pos (Nat.le_of_lt inside)
    refine .next full top ⟨separates.among, same ▸ separates.spells, same ▸ separates.solid, fun word => ?_⟩ ih
    have edges := separates.edges word
    rwa [Line.isBoundary_before (by omega), Line.isBoundary_before inside] at edges

end Order

end Cut

/-- What is counted of some items: their texts, each with the first character of the separator behind it. -/
def counted (l : Line) (items : List (Nat × Nat)) : List Char :=
  items.flatMap fun item => l.slice item.1 (item.2 + 1)

/-- The separator between two items of a cut line stands there, and nothing is open behind its first character. -/
theorem Cut.separated (h : Cut l separators stop start items used) {i : Nat} {a b : Nat × Nat}
    (item : items[i]? = some a) (next : items[i + 1]? = some b) (between : used[i]? = some separator) :
    Separates l separators a.2 b.1 separator ∧ Enclosure.after {} (counted l (items.take (i + 1))) = {} := by
  induction h generalizing i with
  | last => cases between
  | next _ top separates rest ih =>
    rw [List.getElem?_cons_succ] at next
    cases i with
    | zero =>
      cases item
      cases between
      have starts := rest.first
      rw [List.head?_eq_getElem?, next] at starts
      cases starts
      refine ⟨separates, ?_⟩
      rw [List.take_succ_cons, counted, List.take_zero, List.flatMap_singleton]
      exact top
    | succ i =>
      obtain ⟨here, before⟩ := ih item next between
      refine ⟨here, ?_⟩
      rw [List.take_succ_cons, counted, List.flatMap_cons, Enclosure.after_append, top]
      exact before

/-- Some items, and a separator between each two of them, are a stretch of a line. -/
structure Partition (l : Line) (separators : List String) (start stop : Nat) (items : List (Nat × Nat))
    (used : List String) : Prop where
  several : 2 ≤ items.length
  count : items.length = used.length + 1
  full : ∀ item ∈ items, isBlankText (l.slice item.1 item.2) = false
  ordered : items.Pairwise fun a b => a.2 < b.1
  first : items.head?.map Prod.fst = some start
  last : items.getLast?.map Prod.snd = some stop
  /-- between two items stands a separator, outside of the quotes and brackets of all that was counted -/
  separated : ∀ (i : Nat) (a b : Nat × Nat) (separator : String), items[i]? = some a → items[i + 1]? = some b →
    used[i]? = some separator →
      Separates l separators a.2 b.1 separator ∧ Enclosure.after {} (counted l (items.take (i + 1))) = {}

namespace ListScan

/-- What is open where the scan has got to. -/
def enclosure (s : ListScan) : Enclosure :=
  { quoted := s.quoted, depth := s.depth }

theorem enclosure_next (s : ListScan) (c : Char) : (s.next c).enclosure = s.enclosure.next c := by
  unfold next Enclosure.next enclosure
  split
  · rfl
  · split
    · rfl
    · split
      · rfl
      · split <;> rfl

theorem conjunction_next (s : ListScan) (c : Char) : (s.next c).conjunction = s.conjunction := by
  unfold next
  split
  · rfl
  · split
    · rfl
    · split
      · rfl
      · split <;> rfl

theorem conjunction_separate (s : ListScan) (pos : Nat) (separator : String) (after : Nat) :
    (s.separate pos separator after).conjunction = .or ↔
      lowerAsciiString separator = "or" ∨ s.conjunction = .or := by
  simp only [separate, beq_iff_eq]
  split
  next is => simp [is]
  next other => simp [other]

/-- Nothing is open where a separator may stand. -/
theorem enclosure_of_isFree {s : ListScan} {c : Char} (free : s.isFree c = true) : s.enclosure = {} := by
  simp only [isFree, Bool.and_eq_true, Bool.not_eq_true', beq_iff_eq] at free
  simp [enclosure, free.1.1, free.1.2]

/-- The scan has counted what stands between the start of an item and a place. -/
structure Counts (l : Line) (s : ListScan) (pos : Nat) : Prop where
  ahead : s.itemStart ≤ pos
  enclosure : s.enclosure = Enclosure.after {} (l.slice s.itemStart pos)

theorem Counts.next {s : ListScan} {c : Char} (h : s.Counts l pos) (there : l.chars[pos]? = some c) :
    (s.next c).Counts l (pos + 1) := by
  have ahead := h.ahead
  have itemStart := (s.items_next c).2
  refine ⟨by omega, ?_⟩
  rw [itemStart, enclosure_next, h.enclosure, l.slice_succ ahead there, Enclosure.after_append]
  rfl

/-- Behind a separator an item starts anew. -/
theorem Counts.separate {s : ListScan} {c : Char} (free : s.isFree c = true) (pos : Nat) (separator : String)
    (after : Nat) : (s.separate pos separator after).Counts l after := by
  refine ⟨Nat.le_refl after, ?_⟩
  have nothing : l.slice after after = [] := l.slice_self after
  exact (enclosure_of_isFree free).trans (congrArg (Enclosure.after {}) nothing.symm)

end ListScan

/-- **The scan cuts what it has not yet read**, from the start of the item that it is in. The conjunction is `or` if
it was so already, or if a separator is. -/
theorem splitItems_cut (some_ : ∀ separator ∈ separators, separator ≠ "") {s : ListScan} (counts : s.Counts l pos)
    (h : splitItems l separators s pos = some (items, conjunction)) :
    2 ≤ items.length ∧ ∃ rest used, items = s.items ++ rest ∧ Cut l separators l.size s.itemStart rest used ∧
      (conjunction = .or ↔ s.conjunction = .or ∨ ∃ separator ∈ used, lowerAsciiString separator = "or") := by
  fun_induction splitItems l separators s pos with
  | case1 s pos inside c s' free none ih =>
    obtain ⟨several, cut⟩ := ih (counts.next (Array.getElem?_eq_getElem inside)) h
    rw [(s.items_next c).1, (s.items_next c).2, s.conjunction_next c] at cut
    exact ⟨several, cut⟩
  | case2 => cases h
  | case3 s pos inside c s' free separator after found full ih =>
    have further := counts.next (Array.getElem?_eq_getElem inside)
    have separates := separates_of_separatorAt? found
    have past := separates.lt (some_ _ separates.among)
    have onward : max after (pos + 1) = after := by omega
    rw [onward] at h ih
    obtain ⟨several, rest, used, same, cut, which⟩ := ih (.separate free pos separator after) h
    have top : Enclosure.after {} (l.slice s'.itemStart (pos + 1)) = {} :=
      further.enclosure.symm.trans (ListScan.enclosure_of_isFree free)
    have cut : Cut l separators l.size s'.itemStart ((s'.itemStart, pos) :: rest) (separator :: used) :=
      .next (Bool.eq_false_iff.2 full) top separates cut
    rw [(s.items_next c).2] at cut
    refine ⟨several, _, _, ?_, cut, ?_⟩
    · rw [same, ListScan.separate, (s.items_next c).1, (s.items_next c).2, List.append_assoc]
      rfl
    · rw [which, s'.conjunction_separate, s.conjunction_next c, List.exists_mem_cons_iff, or_assoc, or_left_comm]
  | case4 s pos inside c s' held ih =>
    obtain ⟨several, cut⟩ := ih (counts.next (Array.getElem?_eq_getElem inside)) h
    rw [(s.items_next c).1, (s.items_next c).2, s.conjunction_next c] at cut
    exact ⟨several, cut⟩
  | case5 => cases h
  | case6 s pos outside full =>
    simp only [Bool.or_eq_true, List.isEmpty_iff, not_or] at full
    cases h
    have some_ := List.length_pos_iff.2 full.1
    refine ⟨?_, _, [], rfl, .last (Bool.eq_false_iff.2 full.2), ?_⟩
    · rw [List.length_append, List.length_singleton]
      omega
    · simp

/-- **List splitting is an exact partition.** The items of a list are the stretch from its start to its end with one
separator between each two of them, each of them holds something, and the conjunction is `or` if and only if one
of these separators is. -/
theorem splitList?_partition (some_ : ∀ separator ∈ separators, separator ≠ "") (inside : stop ≤ l.size)
    (h : splitList? l start stop separators = some (items, conjunction)) :
    ∃ used, Partition l separators start stop items used ∧
      (conjunction = .or ↔ ∃ separator ∈ used, lowerAsciiString separator = "or") := by
  have counts : ListScan.Counts (l.before stop) { itemStart := start } start := by
    refine ⟨Nat.le_refl start, ?_⟩
    rw [Line.slice_self]
    rfl
  obtain ⟨several, rest, used, rfl, cut, which⟩ := splitItems_cut some_ counts h
  have size : (l.before stop).size = stop := by rw [l.size_before, Nat.min_eq_left inside]
  rw [size] at cut
  have cut := cut.of_before some_
  refine ⟨used, ?_, by simpa using which⟩
  exact {
    several
    count := cut.count
    full := cut.full
    ordered := cut.ordered some_
    first := cut.first
    last := cut.last_stop
    separated := fun i a b separator item next between => cut.separated item next between }

/-- The comma in quotes and the word in brackets separate nothing. -/
theorem splitList?_partition_brackets :
    ∃ used, Partition (Line.ofString "\",\", (a or b) Or c") [",", "or"] 0 18 [(0, 3), (4, 14), (16, 18)] used ∧
      ∃ separator ∈ used, lowerAsciiString separator = "or" := by
  have split : splitList? (Line.ofString "\",\", (a or b) Or c") 0 18 [",", "or"] =
      some ([(0, 3), (4, 14), (16, 18)], .or) := by
    decide +kernel
  obtain ⟨used, partition, which⟩ := splitList?_partition (by decide) (by decide) split
  exact ⟨used, partition, which.1 rfl⟩

end Phrasebook.Parse
