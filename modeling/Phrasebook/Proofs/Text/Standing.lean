import Mathlib.Data.String.Basic
import Phrasebook.Proofs.Text.Blanks

/-!
# Texts at a place of a line

A line is read by positions, and its texts are put together by appending them. `Line.Stands` says that a text
stands at a position; a text that is put together stands there part by part.
-/

namespace Phrasebook.Text.Line

variable {l : Line} {pos : Nat} {c : Char} {text more : List Char}

/-- A line is all that stands before its end. -/
theorem before_size (l : Line) : l.before l.size = l := by
  cases l
  simp [before, size]

/-- Nothing is skipped at the end. -/
theorem skipBlanks_size (l : Line) : l.skipBlanks l.size = l.size :=
  skipBlanks_of_not_blankAt fun blank => Nat.lt_irrefl l.size (lt_size_of_blankAt blank)

theorem length_slice (l : Line) (start stop : Nat) : (l.slice start stop).length = min stop l.size - start := by
  rw [slice, Array.length_toList, Array.size_extract, size]

/-- The characters of a stretch are those of the line. -/
theorem getElem?_slice (l : Line) (start stop i : Nat) :
    (l.slice start stop)[i]? = if i < stop - start then l.chars[start + i]? else none := by
  simp only [slice, Array.toList_extract, List.extract_eq_take_drop, List.getElem?_take, List.getElem?_drop,
    Array.getElem?_toList]

/-- The bytes before a position are those of the characters before it. -/
theorem byteOffset_eq (l : Line) (pos : Nat) : l.byteOffset pos = String.utf8Len (l.chars.toList.take pos) := by
  induction pos with
  | zero => rfl
  | succ pos ih =>
    rw [byteOffset, ih, List.take_add_one, String.utf8Len_append, Array.getElem?_toList]
    cases l.chars[pos]? with
    | none => rfl
    | some c => simp

/-- A text stands at a position. -/
def Stands (l : Line) (pos : Nat) (text : List Char) : Prop :=
  text <+: l.chars.toList.drop pos

/-- What stands between two places stands at the first one. -/
theorem stands_slice (l : Line) (start stop : Nat) : l.Stands start (l.slice start stop) := by
  rw [Stands, slice, Array.toList_extract, List.extract_eq_take_drop]
  exact List.take_prefix _ _

theorem stands_ofList (text : List Char) : (ofList text).Stands 0 text := by
  simp [Stands, ofList]

theorem size_ofList (text : List Char) : (ofList text).size = text.length := by
  simp [size, ofList]

theorem Stands.left (h : l.Stands pos (text ++ more)) : l.Stands pos text :=
  (List.prefix_append text more).trans h

theorem Stands.right (h : l.Stands pos (text ++ more)) : l.Stands (pos + text.length) more := by
  obtain ⟨rest, same⟩ := h
  refine ⟨rest, ?_⟩
  rw [← List.drop_drop, ← same, List.append_assoc, List.drop_left]

theorem Stands.tail (h : l.Stands pos (c :: text)) : l.Stands (pos + 1) text :=
  have first : l.Stands pos ([c] ++ text) := h
  first.right

/-- The first character stands at the position itself. -/
theorem Stands.head (h : l.Stands pos (c :: text)) : l.chars[pos]? = some c := by
  obtain ⟨rest, same⟩ := h
  rw [← Array.getElem?_toList, ← Nat.add_zero pos, ← List.getElem?_drop, ← same]
  rfl

theorem Stands.lt_size (h : l.Stands pos (c :: text)) : pos < l.size :=
  lt_size_of_getElem? h.head

/-- What stands between the ends of a text is the text. -/
theorem Stands.slice (h : l.Stands pos text) : l.slice pos (pos + text.length) = text := by
  obtain ⟨rest, same⟩ := h
  rw [Line.slice, Array.toList_extract, List.extract_eq_take_drop, Nat.add_sub_cancel_left, ← same,
    List.take_left]

/-- Nothing is skipped where a text starts with no blank. -/
theorem Stands.skipBlanks (h : l.Stands pos (c :: text)) (solid : isBlank c = false) :
    l.skipBlanks pos = pos := by
  refine skipBlanks_of_not_blankAt fun blank => ?_
  obtain ⟨d, there, blank⟩ := blankAt_iff.1 blank
  cases h.head.symm.trans there
  rw [solid] at blank
  cases blank

/-- One blank in front of a text is skipped. -/
theorem Stands.skipBlank (h : l.Stands pos (' ' :: c :: text)) (solid : isBlank c = false) :
    l.skipBlanks pos = pos + 1 := by
  refine skipBlanks_eq (Nat.le_succ pos) (fun k ahead before => ?_) fun blank => ?_
  · obtain rfl : k = pos := by omega
    exact blankAt_iff.2 ⟨' ', h.head, by decide⟩
  · obtain ⟨d, there, blank⟩ := blankAt_iff.1 blank
    cases h.tail.head.symm.trans there
    rw [solid] at blank
    cases blank

/-- No blank stands before the end of a text that ends in none. -/
theorem Stands.not_blankAt_last (h : l.Stands pos (text ++ [c])) (solid : isBlank c = false) :
    ¬ l.BlankAt (pos + (text ++ [c]).length - 1) := by
  intro blank
  obtain ⟨d, there, blank⟩ := blankAt_iff.1 blank
  have last : l.chars[pos + (text ++ [c]).length - 1]? = some c := by
    rw [List.length_append, List.length_singleton, ← Nat.add_assoc, Nat.add_sub_cancel]
    exact h.right.head
  cases last.symm.trans there
  rw [solid] at blank
  cases blank

/-- Nothing is dropped behind a text that ends in no blank. -/
theorem Stands.dropBlanks (h : l.Stands pos (text ++ [c])) (solid : isBlank c = false) :
    l.dropBlanks pos (pos + (text ++ [c]).length) = pos + (text ++ [c]).length :=
  dropBlanks_eq (by simp) (Nat.le_refl _) (fun k _ _ => by omega) (h.not_blankAt_last solid)

/-- One blank behind a text that ends in none is dropped. -/
theorem Stands.dropBlank (h : l.Stands pos (text ++ [c])) (solid : isBlank c = false)
    (blank : l.BlankAt (pos + (text ++ [c]).length)) :
    l.dropBlanks pos (pos + (text ++ [c]).length + 1) = pos + (text ++ [c]).length := by
  refine dropBlanks_eq (by simp) (Nat.le_succ _) (fun k from_ before => ?_) (h.not_blankAt_last solid)
  obtain rfl : k = pos + (text ++ [c]).length := by omega
  exact blank

/-- Blanks in front of a text do not count, and there are none behind one that ends in no blank. -/
theorem Stands.trimmed {from_ : Nat} (h : l.Stands pos (text ++ [c])) (solid : isBlank c = false)
    (skipped : l.skipBlanks from_ = pos) :
    l.trimmed from_ (pos + (text ++ [c]).length) = (pos, pos + (text ++ [c]).length) := by
  unfold Line.trimmed
  dsimp only
  rw [skipped, Nat.min_eq_left (Nat.le_add_right _ _), h.dropBlanks solid]

/-- A literal without spaces fits where it stands. -/
theorem Stands.matchFrom {literal : List Char} (h : l.Stands pos literal) (solid : ' ' ∉ literal) :
    l.matchFrom literal pos = some (pos + literal.length) := by
  induction literal generalizing pos with
  | nil => rfl
  | cons c literal ih =>
    rw [List.mem_cons, not_or] at solid
    obtain ⟨other, solid⟩ := solid
    have rest := ih h.tail solid
    have other : (c == ' ') = false := beq_eq_false_iff_ne.2 fun same => other same.symm
    have fits : sameLetter c c = true := by simp [sameLetter]
    simp only [Line.matchFrom, other, Bool.false_eq_true, if_false, h.head, fits, if_true, rest]
    rw [List.length_cons, Nat.add_right_comm, Nat.add_assoc]

end Phrasebook.Text.Line
