import Mathlib.Data.List.TakeWhile
import Phrasebook.Text.Words

/-!
# Texts without the blanks at their ends

A text is what is left of it without the blanks at its ends, with only blanks around it; and blanks that are put
around a text are cut off again.
-/

namespace Phrasebook.Text

variable {before text after blanks : List Char}

/-- What starts with no blank is left as it is behind blanks, and so is every part that it starts with. -/
theorem trimStart_blanks {ahead : List Char} (blank : ∀ c ∈ blanks, isBlank c = true)
    (solid : ∀ c ∈ text.head?, isBlank c = false) (starts : ahead <+: text) : trimStart (blanks ++ ahead) = ahead := by
  rw [trimStart, List.dropWhile_append_of_pos blank]
  cases ahead with
  | nil => rfl
  | cons c ahead =>
    obtain ⟨behind, rfl⟩ := starts
    exact List.dropWhile_cons_of_neg (by rw [solid c rfl]; exact Bool.false_ne_true)

theorem trimStart_solid {ahead : List Char} (solid : ∀ c ∈ text.head?, isBlank c = false) (starts : ahead <+: text) :
    trimStart ahead = ahead :=
  @trimStart_blanks text [] ahead nofun solid starts

theorem trimEnd_blanks (blank : ∀ c ∈ blanks, isBlank c = true) : trimEnd (text ++ blanks) = trimEnd text := by
  have blank' : ∀ c ∈ blanks.reverse, isBlank c = true := fun c mem => blank c (List.mem_reverse.1 mem)
  rw [trimEnd, trimEnd, List.reverse_append, List.dropWhile_append_of_pos blank']

theorem exists_blanks (text : List Char) :
    ∃ blanks, (∀ c ∈ blanks, isBlank c = true) ∧ trimEnd text ++ blanks = text := by
  refine ⟨(text.reverse.takeWhile isBlank).reverse, fun c mem => ?_, ?_⟩
  · exact List.mem_takeWhile_imp (List.mem_reverse.1 mem)
  · rw [trimEnd, ← List.reverse_append, List.takeWhile_append_dropWhile, List.reverse_reverse]

theorem isPrefix_trimEnd (text : List Char) : trimEnd text <+: text := by
  obtain ⟨blanks, -, same⟩ := exists_blanks text
  exact ⟨blanks, same⟩

/-- A text without blanks has none at its ends. -/
theorem trim_of_solid (solid : ∀ c ∈ text, isBlank c = false) : trim text = text := by
  have kept {text : List Char} (solid : ∀ c ∈ text, isBlank c = false) : text.dropWhile isBlank = text := by
    cases text with
    | nil => rfl
    | cons c text => exact List.dropWhile_cons_of_neg (by simp [solid c List.mem_cons_self])
  have behind : ∀ c ∈ text.reverse, isBlank c = false := fun c mem => solid c (List.mem_reverse.1 mem)
  rw [trim, trimStart, kept solid, trimEnd, kept behind, List.reverse_reverse]

/-- Blanks around a text without blanks are cut off. -/
theorem trim_between (blank : ∀ c ∈ before, isBlank c = true) (blank' : ∀ c ∈ after, isBlank c = true)
    (solid : ∀ c ∈ text, isBlank c = false) (some_ : text ≠ []) : trim (before ++ text ++ after) = text := by
  have first : ∀ c ∈ (text ++ after).head?, isBlank c = false := by
    obtain ⟨c, text, rfl⟩ := List.exists_cons_of_ne_nil some_
    rintro _ ⟨⟩
    exact solid c List.mem_cons_self
  have alone : trimStart text = text := trimStart_solid first (List.prefix_append text after)
  calc trim (before ++ text ++ after)
    _ = trimEnd (text ++ after) := by
      rw [trim, List.append_assoc, trimStart_blanks blank first (List.prefix_refl _)]
    _ = trim text := by rw [trimEnd_blanks blank', trim, alone]
    _ = text := trim_of_solid solid

/-- Only blanks are cut off. -/
theorem exists_trim (text : List Char) : ∃ before after, (∀ c ∈ before, isBlank c = true) ∧
    (∀ c ∈ after, isBlank c = true) ∧ text = before ++ trim text ++ after := by
  obtain ⟨after, blank, same⟩ := exists_blanks (trimStart text)
  refine ⟨text.takeWhile isBlank, after, fun c mem => List.mem_takeWhile_imp mem, blank, ?_⟩
  rw [List.append_assoc, trim, same, trimStart, List.takeWhile_append_dropWhile]

end Phrasebook.Text
