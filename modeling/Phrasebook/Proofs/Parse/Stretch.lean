import Phrasebook.Parse.Expression
import Phrasebook.Proofs.Text.Standing

/-!
# Stretches within stretches

Whatever part of a stretch is read is a stretch within it: what is left without the blanks at its ends, what
stands in parentheses and the items of a list. Within a line, a stretch in bytes stands for one pair of
positions.
-/

namespace Phrasebook
open Text

/-- One stretch lies within another. -/
def Stretch.Within (a b : Stretch) : Prop :=
  b.start ≤ a.start ∧ a.stop ≤ b.stop

namespace Stretch.Within

variable {a b c : Stretch}

theorem refl (a : Stretch) : a.Within a := ⟨Nat.le_refl _, Nat.le_refl _⟩

theorem trans (h : a.Within b) (h' : b.Within c) : a.Within c :=
  ⟨Nat.le_trans h'.1 h.1, Nat.le_trans h.2 h'.2⟩

theorem antisymm (h : a.Within b) (h' : b.Within a) : a = b := by
  cases a
  cases b
  simp only [Within, Stretch.mk.injEq] at h h' ⊢
  omega

end Stretch.Within

namespace Parse

variable {l : Line}

theorem stretchOf_within {start stop start' stop' : Nat} (hs : start ≤ start') (hs' : stop' ≤ stop) :
    (stretchOf l start' stop').Within (stretchOf l start stop) :=
  ⟨l.byteOffset_mono hs, l.byteOffset_mono hs'⟩

/-- A stretch of a line tells where it stands. -/
theorem stretchOf_inj {start stop start' stop' : Nat} (hs : start ≤ l.size) (ht : stop ≤ l.size)
    (hs' : start' ≤ l.size) (ht' : stop' ≤ l.size)
    (h : stretchOf l start stop = stretchOf l start' stop') : start = start' ∧ stop = stop' := by
  simp only [stretchOf, Stretch.mk.injEq] at h
  exact ⟨l.byteOffset_inj hs hs' h.1, l.byteOffset_inj ht ht' h.2⟩

/-- A stretch in brackets has room for both of them. -/
theorem length_of_isEnclosed {left right : Char} (different : left ≠ right) {text : List Char}
    (h : isEnclosed left right text = true) : 2 ≤ text.length := by
  match text with
  | [] => simp [isEnclosed] at h
  | [c] =>
    simp only [isEnclosed, List.head?_cons, Bool.and_eq_true, beq_iff_eq, Option.some.injEq] at h
    obtain ⟨rfl, closed⟩ := h
    simp only [closing?, Option.map_none] at closed
    split at closed
    · cases closed
    · simp at closed
  | _ :: _ :: _ => simp

theorem size_of_slice {start stop n : Nat} (h : n ≤ (l.slice start stop).length) :
    start + n ≤ stop ∨ n = 0 := by
  rw [l.length_slice] at h
  omega

/-- A separator ends behind the place at which it was found. -/
theorem le_of_separatorAt? {itemStart pos after : Nat} {separators : List String} {sep : String}
    (h : separatorAt? l itemStart pos separators = some (sep, after)) : pos ≤ after := by
  induction separators with
  | nil => cases h
  | cons first rest ih =>
    simp only [separatorAt?] at h
    split at h
    · exact ih h
    · split at h
      · exact ih h
      case h_2 found =>
        split at h
        · exact ih h
        · cases h
          exact Nat.le_trans (l.le_skipBlanks pos) (Line.le_of_matchFrom found)

/-- A stretch that is not blank is not empty. -/
theorem lt_of_slice {start stop : Nat} (h : ¬ isBlankText (l.slice start stop) = true) :
    start < stop := by
  rcases Nat.lt_or_ge start stop with less | more
  · exact less
  · have empty : l.slice start stop = [] := by
      apply List.eq_nil_of_length_eq_zero
      rw [l.length_slice]
      omega
    exact absurd (by rw [empty]; rfl) h

/-- A part of the text between two places that holds something, but not all of it. -/
structure ProperPart (start stop : Nat) (part : Nat × Nat) : Prop where
  after : start ≤ part.1
  some : part.1 < part.2
  before : part.2 ≤ stop
  less : part.2 - part.1 < stop - start

/-- A character ends no item. -/
theorem ListScan.items_next (s : ListScan) (c : Char) :
    (s.next c).items = s.items ∧ (s.next c).itemStart = s.itemStart := by
  unfold ListScan.next
  split
  · exact ⟨rfl, rfl⟩
  · split
    · exact ⟨rfl, rfl⟩
    · split
      · exact ⟨rfl, rfl⟩
      · split <;> exact ⟨rfl, rfl⟩

/-- The items of a list that were found so far lie between two places, and the next one starts behind
them. -/
structure ListScan.Within (start stop : Nat) (s : ListScan) : Prop where
  itemStart : start ≤ s.itemStart
  ended : ∀ item ∈ s.items, start ≤ item.1 ∧ item.1 < item.2 ∧ item.2 < stop
  behind : s.items ≠ [] → start < s.itemStart

namespace ListScan.Within

variable {start stop : Nat} {s : ListScan}

theorem next (h : s.Within start stop) (c : Char) : (s.next c).Within start stop := by
  obtain ⟨items, itemStart⟩ := s.items_next c
  exact ⟨itemStart ▸ h.itemStart, items ▸ h.ended, items ▸ itemStart ▸ h.behind⟩

theorem separate (h : s.Within start stop) {pos after : Nat} {sep : String} (less : s.itemStart < pos)
    (inside : pos < stop) (past : pos ≤ after) : (s.separate pos sep after).Within start stop := by
  have ordered := h.itemStart
  refine ⟨?_, fun item mem => ?_, fun _ => ?_⟩
  · show start ≤ after
    omega
  · rcases List.mem_append.1 mem with mem | mem
    · exact h.ended item mem
    · cases List.mem_singleton.1 mem
      exact ⟨ordered, less, inside⟩
  · show start < after
    omega

/-- All items of a list of at least two are proper parts. -/
theorem properParts (h : s.Within start stop) (several : s.items ≠ []) (less : s.itemStart < stop) :
    ∀ item ∈ s.items ++ [(s.itemStart, stop)], ProperPart start stop item := by
  have behind := h.behind several
  intro item mem
  rcases List.mem_append.1 mem with mem | mem
  · obtain ⟨after, some, before⟩ := h.ended item mem
    exact ⟨after, some, by omega, by omega⟩
  · cases List.mem_singleton.1 mem
    refine ⟨h.itemStart, less, Nat.le_refl _, ?_⟩
    show stop - s.itemStart < stop - start
    omega

end ListScan.Within

theorem splitItems_properParts {separators : List String} {start : Nat} {s : ListScan} {pos : Nat}
    {items : List (Nat × Nat)} {conjunction : Conjunction} (within : s.Within start l.size)
    (h : splitItems l separators s pos = some (items, conjunction)) :
    ∀ item ∈ items, ProperPart start l.size item := by
  fun_induction splitItems l separators s pos with
  | case1 s pos _ c _ _ _ ih => exact ih (within.next c) h
  | case2 => cases h
  | case3 s pos inside c s' _ sep after found some' ih =>
    exact ih ((within.next c).separate (lt_of_slice some') inside (le_of_separatorAt? found)) h
  | case4 s pos _ c _ _ ih => exact ih (within.next c) h
  | case5 => cases h
  | case6 s pos _ some' =>
    simp only [Bool.or_eq_true, List.isEmpty_iff, not_or] at some'
    cases h
    exact within.properParts some'.1 (lt_of_slice some'.2)

/-- The items of a list are proper parts of it. -/
theorem splitList?_properParts {start stop : Nat} {separators : List String}
    {items : List (Nat × Nat)} {conjunction : Conjunction}
    (h : splitList? l start stop separators = some (items, conjunction)) :
    ∀ item ∈ items, ProperPart start stop item := by
  have within : ListScan.Within start (l.before stop).size { itemStart := start } :=
    ⟨Nat.le_refl start, fun _ mem => (List.not_mem_nil mem).elim, fun several => absurd rfl several⟩
  intro item mem
  obtain ⟨after, some, before, less⟩ := splitItems_properParts within h item mem
  have short : (l.before stop).size ≤ stop := by
    rw [l.size_before]
    exact Nat.min_le_left _ _
  exact ⟨after, some, by omega, by omega⟩

end Parse

end Phrasebook
