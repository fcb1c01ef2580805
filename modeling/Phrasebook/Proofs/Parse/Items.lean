import Phrasebook.Proofs.Parse.Stretch
import Phrasebook.Proofs.Text.Edges
import Phrasebook.Proofs.Text.LetterCase

/-!
# Where the items of a list end

The items of a list stand one behind the other. An item ends where a separator starts, and a separator that
holds something starts at a boundary: one that starts with a word is asked to, and any other one starts with a
character that makes up no words. So no item ends within a word, though it may start within one, behind a
separator that ends with a word and does not start with one.
-/

namespace Phrasebook.Parse
open Text

variable {l : Line} {separators : List String}

/-- A text that starts at a position with a character that makes up no words starts at a boundary. -/
theorem isBoundary_of_matchFrom {c : Char} {literal : List Char} {pos after : Nat}
    (other : isWordChar c = false) (solid : l.skipBlanks pos = pos)
    (found : l.matchFrom (c :: literal) pos = some after) : l.isBoundary pos = true := by
  simp only [Line.matchFrom] at found
  split at found
  · rw [if_pos (by rw [solid, beq_self_eq_true])] at found
    cases found
  · split at found
    next d there =>
      split at found
      next same => exact Line.isBoundary_of_after there (not_isWordChar_of_sameLetter same other)
      next => cases found
    next => cases found

/-- **A separator that holds something starts at a boundary.** -/
theorem isBoundary_of_separatorAt? (some_ : ∀ sep ∈ separators, sep ≠ "") {itemStart pos after : Nat}
    {sep : String} (found : separatorAt? l itemStart pos separators = some (sep, after)) :
    l.isBoundary pos = true := by
  induction separators with
  | nil => cases found
  | cons first rest ih =>
    have others := ih fun sep mem => some_ sep (List.mem_cons_of_mem _ mem)
    simp only [separatorAt?] at found
    split at found
    · exact others found
    next starts =>
    split at found
    · exact others found
    next matched =>
    split at found
    · exact others found
    next fits =>
      simp only [Bool.or_eq_true, not_or, bne_iff_ne, ne_eq, Decidable.not_not] at fits
      obtain ⟨c, literal, same⟩ : ∃ c literal, first.toList = c :: literal := by
        refine List.exists_cons_of_ne_nil fun none => some_ first List.mem_cons_self ?_
        exact String.toList_eq_nil_iff.1 none
      rw [same] at starts matched
      rw [Line.matchLiteral, fits.1] at matched
      cases word : isWordChar c with
      | true =>
        simp only [List.head?_cons, Option.any_some, word, Bool.true_and, Bool.or_eq_true, not_or] at starts
        simpa using starts.1
      | false => exact isBoundary_of_matchFrom word fits.1 matched

/-- Some places stand one behind the other, and none of them ends within a word. -/
structure Apart (l : Line) (items : List (Nat × Nat)) : Prop where
  ordered : items.Pairwise fun a b => a.2 ≤ b.1
  ends : ∀ item ∈ items, l.isBoundary item.2 = true

theorem Apart.append {items : List (Nat × Nat)} (h : Apart l items) {start stop : Nat}
    (behind : ∀ item ∈ items, item.2 ≤ start) (boundary : l.isBoundary stop = true) :
    Apart l (items ++ [(start, stop)]) where
  ordered := by
    refine List.pairwise_append.2 ⟨h.ordered, List.pairwise_singleton _ _, fun item mem last mem' => ?_⟩
    cases List.mem_singleton.1 mem'
    exact behind item mem
  ends item mem := by
    rcases List.mem_append.1 mem with mem | mem
    · exact h.ends item mem
    · cases List.mem_singleton.1 mem
      exact boundary

/-- The items of a list that were found so far are apart, and the next one starts behind them. -/
structure ListScan.Apart (l : Line) (s : ListScan) : Prop where
  items : Parse.Apart l s.items
  behind : ∀ item ∈ s.items, item.2 ≤ s.itemStart

namespace ListScan.Apart

variable {s : ListScan}

theorem next (h : s.Apart l) (c : Char) : (s.next c).Apart l := by
  obtain ⟨items, itemStart⟩ := s.items_next c
  exact ⟨items ▸ h.items, items ▸ itemStart ▸ h.behind⟩

theorem separate (h : s.Apart l) {pos after : Nat} {sep : String} (boundary : l.isBoundary pos = true)
    (less : s.itemStart < pos) (past : pos ≤ after) : (s.separate pos sep after).Apart l := by
  refine ⟨h.items.append h.behind boundary, fun item mem => ?_⟩
  show item.2 ≤ after
  rcases List.mem_append.1 mem with mem | mem
  · have := h.behind item mem
    omega
  · cases List.mem_singleton.1 mem
    exact past

end ListScan.Apart

theorem splitItems_apart (some_ : ∀ sep ∈ separators, sep ≠ "") {s : ListScan} {pos : Nat}
    {items : List (Nat × Nat)} {conjunction : Conjunction} (apart : s.Apart l)
    (h : splitItems l separators s pos = some (items, conjunction)) : Apart l items := by
  fun_induction splitItems l separators s pos with
  | case1 s pos _ c _ _ _ ih => exact ih (apart.next c) h
  | case2 => cases h
  | case3 s pos inside c s' _ sep after found some' ih =>
    have boundary := isBoundary_of_separatorAt? some_ found
    exact ih ((apart.next c).separate boundary (lt_of_slice some') (le_of_separatorAt? found)) h
  | case4 s pos _ c _ _ ih => exact ih (apart.next c) h
  | case5 => cases h
  | case6 s pos =>
    cases h
    exact apart.items.append apart.behind l.isBoundary_size

/-- **The items of a list are apart**, if no separator is empty. -/
theorem splitList?_apart (some_ : ∀ sep ∈ separators, sep ≠ "") {start stop : Nat}
    {items : List (Nat × Nat)} {conjunction : Conjunction} (end_ : l.isBoundary stop = true)
    (h : splitList? l start stop separators = some (items, conjunction)) : Apart l items := by
  have none : ListScan.Apart (l.before stop) { itemStart := start } :=
    ⟨⟨.nil, fun _ mem => (List.not_mem_nil mem).elim⟩, fun _ mem => (List.not_mem_nil mem).elim⟩
  have apart := splitItems_apart some_ none h
  refine ⟨apart.ordered, fun item mem => ?_⟩
  exact Line.isBoundary_of_isBoundary_before (apart.ends item mem)
    (splitList?_properParts h item mem).before end_

end Phrasebook.Parse
