import Phrasebook.Proofs.Text.Aligned

/-!
# Stretches without blanks at their ends

What is left of a stretch without the blanks at its ends is solid: it holds something, and no blank stands at
either end. Taking blanks away never makes an end cut a word in two that did not cut one before.
-/

namespace Phrasebook.Text.Line

variable {l : Line} {start stop pos : Nat}

/-- A position before a character that makes up no words is a boundary. -/
theorem isBoundary_of_after {c : Char} (there : l.chars[pos]? = some c) (other : isWordChar c = false) :
    l.isBoundary pos = true := by
  simp [isBoundary, wordAfter, there, other]

/-- A position behind a character that makes up no words is a boundary. -/
theorem isBoundary_of_before {c : Char} (there : l.chars[pos]? = some c) (other : isWordChar c = false) :
    l.isBoundary (pos + 1) = true := by
  simp [isBoundary, wordBefore, there, other]

/-- A position before a blank is a boundary. -/
theorem isBoundary_of_blankAt (blank : l.BlankAt pos) : l.isBoundary pos = true := by
  obtain ⟨c, there, blank⟩ := blankAt_iff.1 blank
  exact isBoundary_of_after there (not_isWordChar_of_isBlank blank)

/-- The end of a line is a boundary. -/
theorem isBoundary_size (l : Line) : l.isBoundary l.size = true := by
  have whole := l.isBoundary_before_self l.size
  rwa [l.before_size] at whole

/-- A position that cuts no word where only the text before `stop` is looked at cuts none at all, if the line
is not cut within a word at `stop`. -/
theorem isBoundary_of_isBoundary_before (boundary : (l.before stop).isBoundary pos = true)
    (within : pos ≤ stop) (end_ : l.isBoundary stop = true) : l.isBoundary pos = true := by
  rcases Nat.eq_or_lt_of_le within with rfl | inside
  · exact end_
  · rwa [isBoundary_before inside] at boundary

/-- A stretch of a line that holds something and has no blank at its ends. -/
structure Solid (l : Line) (start stop : Nat) : Prop where
  holds : start < stop
  inside : stop ≤ l.size
  first : ¬ l.BlankAt start
  last : ¬ l.BlankAt (stop - 1)

section Trimmed

variable (held : (l.trimmed start stop).1 < (l.trimmed start stop).2)

include held

/-- What is left of a stretch starts where the blanks end. -/
theorem trimmed_fst : (l.trimmed start stop).1 = l.skipBlanks start := by
  have bound := l.dropBlanks_le (min (l.skipBlanks start) stop) stop
  simp only [trimmed] at held ⊢
  omega

theorem solid_trimmed (inside : stop ≤ l.size) :
    l.Solid (l.trimmed start stop).1 (l.trimmed start stop).2 where
  holds := held
  inside := Nat.le_trans (l.dropBlanks_le _ stop) inside
  first := by
    rw [trimmed_fst held]
    exact l.not_blankAt_skipBlanks start
  last := not_blankAt_dropBlanks held

theorem isBoundary_trimmed_fst (boundary : l.isBoundary start = true) :
    l.isBoundary (l.trimmed start stop).1 = true := by
  rw [trimmed_fst held]
  rcases Nat.eq_or_lt_of_le (l.le_skipBlanks start) with same | skipped
  · rwa [← same]
  · have blank : l.BlankAt (l.skipBlanks start - 1) :=
      blankAt_of_lt_skipBlanks (Nat.le_sub_one_of_lt skipped) (by omega)
    have behind := isBoundary_succ blank
    rwa [Nat.sub_add_cancel (by omega)] at behind

omit held in
theorem isBoundary_trimmed_snd (boundary : l.isBoundary stop = true) :
    l.isBoundary (l.trimmed start stop).2 = true := by
  have bound := l.dropBlanks_le (min (l.skipBlanks start) stop) stop
  rcases Nat.eq_or_lt_of_le bound with same | dropped
  · rw [trimmed]
    rwa [same]
  · exact isBoundary_of_blankAt (blankAt_of_dropBlanks_le (Nat.le_refl _) dropped)

end Trimmed

end Phrasebook.Text.Line
