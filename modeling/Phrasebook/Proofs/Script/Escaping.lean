import Phrasebook.Proofs.Script.Quotes

/-!
# Texts written so that no comment starts in them

A number sign that stands outside of quotes and braces starts a comment, unless it is doubled. With all of
these signs doubled, any text can be written into a script: the removal of comments gives it back, with or
without a comment behind it.
-/

namespace Phrasebook.Script
open Text

namespace Nesting

/-- The nesting behind a text. -/
def after (n : Nesting) (text : List Char) : Nesting :=
  text.foldl next n

@[simp] theorem after_nil (n : Nesting) : n.after [] = n := rfl

@[simp] theorem after_cons (n : Nesting) (c : Char) (text : List Char) :
    n.after (c :: text) = (n.next c).after text := rfl

/-- Nothing but a quote starts or ends quotes. -/
theorem next_quoted (n : Nesting) (c : Char) : (n.next c).quoted = (n.quoted ^^ c == '"') := by
  unfold next
  split
  next quote => simp [quote]
  next other =>
    have other : (c == '"') = false := Bool.eq_false_iff.2 other
    rw [other, Bool.xor_false]
    split
    · rfl
    · split
      · rfl
      · split <;> rfl

/-- Quotes are open behind a text that holds an odd number of them. -/
theorem after_quoted (n : Nesting) (text : List Char) :
    (n.after text).quoted = (n.quoted ^^ text.count '"' % 2 == 1) := by
  induction text generalizing n with
  | nil => simp
  | cons c text ih =>
    rw [after_cons, ih, next_quoted, List.count_cons]
    by_cases quote : c = '"'
    · -- One more quote turns the parity around.
      have turned : ((text.count '"' + 1) % 2 == 1) = !(text.count '"' % 2 == 1) := by
        rw [Bool.eq_iff_iff]
        simp only [beq_iff_eq, Bool.not_eq_true', beq_eq_false_iff_ne]
        omega
      simp [quote, turned]
    · have other : (c == '"') = false := beq_false_of_ne quote
      simp [other]

/-- A text leaves nothing open, and a number sign behind it is not covered: it has an even number of quotes, and
its braces are closed. -/
theorem covers_after {text : List Char} (quotes : text.count '"' % 2 = 0) (braces : (after {} text).braces = 0) :
    (after {} text).covers = false := by
  rw [covers, after_quoted, quotes, braces]
  rfl

end Nesting

/-- A text with every number sign doubled that stands outside of quotes and braces, from within a nesting on. -/
def escapeFrom (n : Nesting) : List Char → List Char
  | [] => []
  | c :: text =>
    if c = '#' ∧ n.covers = false then '#' :: '#' :: escapeFrom (n.next c) text
    else c :: escapeFrom (n.next c) text

/-- A text with every number sign doubled that stands outside of quotes and braces. -/
def escapeSigns (text : List Char) : List Char :=
  escapeFrom {} text

/-- The removal of comments reads a doubled number sign as one. -/
theorem stripFrom_doubled {n : Nesting} (bare : n.covers = false) (more : List Char) :
    stripFrom n ('#' :: '#' :: more) = '#' :: stripFrom (n.next '#') more := by
  have stays : n.next '#' = n := by simp [Nesting.next]
  rw [stripFrom.eq_def, stays]
  simp [bare]

/-- A number sign that is not doubled starts a comment. -/
theorem stripFrom_sign {n : Nesting} (bare : n.covers = false) {comment : List Char}
    (single : comment.head? ≠ some '#') : stripFrom n ('#' :: comment) = [] := by
  rw [stripFrom.eq_def]
  simp only [bare, Bool.false_eq_true, if_false]
  split
  next rest _ => exact absurd rfl single
  next => rfl

/-- The removal of comments gives a text back that was escaped within the same nesting, and goes on behind it
within the nesting that the text itself leaves. -/
theorem stripFrom_escapeFrom (n : Nesting) (text more : List Char) :
    stripFrom n (escapeFrom n text ++ more) = text ++ stripFrom (n.after text) more := by
  induction text generalizing n with
  | nil => rfl
  | cons c text ih =>
    rw [escapeFrom, Nesting.after_cons]
    split
    next sign =>
      obtain ⟨rfl, bare⟩ := sign
      rw [List.cons_append, List.cons_append, stripFrom_doubled bare, ih, List.cons_append]
    next other =>
      have spared : Spares n [c] (n.next c) := spares_char fun sign => by
        simpa [sign] using other
      have read := spared (escapeFrom (n.next c) text ++ more)
      rw [List.singleton_append, List.singleton_append] at read
      rw [List.cons_append, read, ih, List.cons_append]

/-- **An escaped text comes back.** The removal of comments gives back every text whose number signs outside of
quotes and braces are doubled, and takes away a comment behind it if the text leaves no quote and no brace open. -/
theorem stripComment_escapeSigns (text : List Char) :
    stripComment (escapeSigns text) = text ∧
      (text.count '"' % 2 = 0 → (Nesting.after {} text).braces = 0 →
        ∀ comment : List Char, comment.head? ≠ some '#' →
          stripComment (escapeSigns text ++ '#' :: comment) = text) := by
  constructor
  · have whole := stripFrom_escapeFrom {} text []
    rwa [List.append_nil, stripFrom, List.append_nil] at whole
  · intro quotes braces comment single
    have bare := Nesting.covers_after quotes braces
    rw [stripComment, escapeSigns, stripFrom_escapeFrom, stripFrom_sign bare single, List.append_nil]

/-- A sign in quotes stays as it is, the one behind them is doubled, and the comment goes. -/
theorem stripComment_escapeSigns_note :
    escapeSigns "say \"#1\" or #2".toList = "say \"#1\" or ##2".toList ∧
      stripComment (escapeSigns "say \"#1\" or #2".toList ++ '#' :: " a note".toList) =
        "say \"#1\" or #2".toList :=
  ⟨by decide, (stripComment_escapeSigns "say \"#1\" or #2".toList).2 (by decide) (by decide) " a note".toList
    (by decide)⟩

end Phrasebook.Script
