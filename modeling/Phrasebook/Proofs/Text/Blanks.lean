import Phrasebook.Text.Line

/-!
# Where skipping and dropping blanks stop

Skipping blanks from a position leads to the first one that stands before no blank, and dropping them to
the last one that stands after no blank. A blank makes up no words, so every position next to one is a
boundary.
-/

namespace Phrasebook.Text

/-- The code points of the blanks. -/
def blankPoints : List Nat :=
  List.range' 9 5 ++ [0x20, 0x85, 0xA0, 0x1680] ++ List.range' 0x2000 11 ++
    [0x2028, 0x2029, 0x202F, 0x205F, 0x3000]

theorem mem_blankPoints {c : Char} (blank : isBlank c = true) : c.toNat ∈ blankPoints := by
  simp only [isBlank, Bool.or_eq_true, Bool.and_eq_true, decide_eq_true_eq, beq_iff_eq] at blank
  simp only [blankPoints, List.mem_append, List.mem_range'_1, List.mem_cons, List.not_mem_nil, or_false]
  omega

/-- A blank makes up no words. -/
theorem not_isWordChar_of_isBlank {c : Char} (blank : isBlank c = true) : isWordChar c = false := by
  have none : ∀ n ∈ blankPoints, isWordChar (Char.ofNat n) = false := by decide +kernel
  have here := none c.toNat (mem_blankPoints blank)
  rwa [Char.ofNat_toNat] at here

namespace Line

variable {l : Line} {start stop i j k : Nat}

/-- A blank stands after a position. -/
def BlankAt (l : Line) (i : Nat) : Prop :=
  (l.chars[i]?).any isBlank = true

theorem blankAt_iff : l.BlankAt i ↔ ∃ c, l.chars[i]? = some c ∧ isBlank c = true := by
  simp [BlankAt, Option.any_eq_true]

theorem lt_size_of_blankAt (blank : l.BlankAt i) : i < l.size := by
  obtain ⟨c, there, -⟩ := blankAt_iff.1 blank
  exact (Array.getElem?_eq_some_iff.1 there).1

theorem lt_size_of_getElem? {c : Char} (there : l.chars[i]? = some c) : i < l.size :=
  (Array.getElem?_eq_some_iff.1 there).1

/-- A position behind a blank is a boundary. -/
theorem isBoundary_succ (blank : l.BlankAt i) : l.isBoundary (i + 1) = true := by
  obtain ⟨c, there, blank⟩ := blankAt_iff.1 blank
  simp [isBoundary, wordBefore, there, not_isWordChar_of_isBlank blank]

/-- Only blanks are skipped. -/
theorem blankAt_of_lt_skipBlanks (from_ : i ≤ k) (before : k < l.skipBlanks i) : l.BlankAt k := by
  fun_induction skipBlanks l i with
  | case1 i inside blank ih =>
    rcases Nat.eq_or_lt_of_le from_ with rfl | later
    · exact blankAt_iff.2 ⟨_, Array.getElem?_eq_getElem inside, blank⟩
    · exact ih later before
  | case2 => omega
  | case3 => omega

/-- No blank stands where skipping stops. -/
theorem not_blankAt_skipBlanks (l : Line) (i : Nat) : ¬ l.BlankAt (l.skipBlanks i) := by
  fun_induction skipBlanks l i with
  | case1 i inside blank ih => exact ih
  | case2 i inside solid =>
    intro blank
    obtain ⟨c, there, blank⟩ := blankAt_iff.1 blank
    obtain rfl : l.chars[i] = c := by simpa [inside] using there
    exact solid blank
  | case3 i outside =>
    intro blank
    exact outside (lt_size_of_blankAt blank)

/-- Skipping stops at the first position before no blank. -/
theorem skipBlanks_eq (ahead : i ≤ j) (blanks : ∀ k, i ≤ k → k < j → l.BlankAt k)
    (solid : ¬ l.BlankAt j) : l.skipBlanks i = j := by
  rcases Nat.lt_trichotomy (l.skipBlanks i) j with less | same | more
  · exact absurd (blanks _ (l.le_skipBlanks i) less) (l.not_blankAt_skipBlanks i)
  · exact same
  · exact absurd (blankAt_of_lt_skipBlanks ahead more) solid

/-- Nothing is skipped where no blank stands. -/
theorem skipBlanks_of_not_blankAt (solid : ¬ l.BlankAt i) : l.skipBlanks i = i :=
  skipBlanks_eq (Nat.le_refl i) (fun _ _ _ => by omega) solid

@[simp] theorem skipBlanks_skipBlanks (l : Line) (i : Nat) :
    l.skipBlanks (l.skipBlanks i) = l.skipBlanks i :=
  skipBlanks_of_not_blankAt (l.not_blankAt_skipBlanks i)

/-- Only blanks are dropped. -/
theorem blankAt_of_dropBlanks_le (from_ : l.dropBlanks start stop ≤ k) (before : k < stop) :
    l.BlankAt k := by
  induction stop with
  | zero => omega
  | succ stop ih =>
    rw [dropBlanks] at from_
    split at from_
    · split at from_
      next c there =>
        split at from_
        next blank =>
          rcases Nat.eq_or_lt_of_le (Nat.le_of_lt_succ before) with rfl | earlier
          · exact blankAt_iff.2 ⟨c, there, blank⟩
          · exact ih from_ earlier
        next => omega
      next => omega
    · omega

/-- No blank stands before the position at which dropping stops, unless it is the start. -/
theorem not_blankAt_dropBlanks (held : start < l.dropBlanks start stop) :
    ¬ l.BlankAt (l.dropBlanks start stop - 1) := by
  induction stop with
  | zero => simp [dropBlanks] at held
  | succ stop ih =>
    rw [dropBlanks] at held ⊢
    split at held
    next inside =>
      rw [if_pos inside]
      cases there : l.chars[stop]? with
      | none =>
        intro blank
        have := lt_size_of_blankAt blank
        have outside := Array.getElem?_eq_none_iff.1 there
        simp only [size] at this
        omega
      | some c =>
        simp only [there] at held ⊢
        by_cases blank : isBlank c
        · rw [if_pos blank] at held ⊢
          exact ih held
        · rw [if_neg blank]
          intro blankAt
          obtain ⟨c', there', blank'⟩ := blankAt_iff.1 blankAt
          obtain rfl : c = c' := Option.some.inj (there.symm.trans there')
          exact blank blank'
    next outside => omega

/-- Dropping stops at the last position after no blank. -/
theorem dropBlanks_eq (held : start < j) (within : j ≤ stop)
    (blanks : ∀ k, j ≤ k → k < stop → l.BlankAt k) (solid : ¬ l.BlankAt (j - 1)) :
    l.dropBlanks start stop = j := by
  have bound := l.dropBlanks_le start stop
  have from_ : start ≤ l.dropBlanks start stop := l.le_dropBlanks (by omega)
  rcases Nat.lt_trichotomy (l.dropBlanks start stop) j with less | same | more
  · exact absurd (blankAt_of_dropBlanks_le (Nat.le_sub_one_of_lt less) (by omega)) solid
  · exact same
  · refine absurd (blanks _ ?_ ?_) (not_blankAt_dropBlanks (Nat.lt_trans held more))
    · omega
    · omega

/-- Dropping blanks from a later position stops no earlier. -/
theorem dropBlanks_mono (l : Line) (start : Nat) (h : i ≤ j) :
    l.dropBlanks start i ≤ l.dropBlanks start j := by
  induction h with
  | refl => exact Nat.le_refl _
  | @step stop _ ih =>
    have bound := l.dropBlanks_le start stop
    refine Nat.le_trans ih ?_
    rw [dropBlanks]
    split
    · split
      · split <;> omega
      · omega
    · omega

end Line

end Phrasebook.Text
