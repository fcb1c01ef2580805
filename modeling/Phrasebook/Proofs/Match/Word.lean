import Phrasebook.Proofs.Match.Backtrack
import Phrasebook.Proofs.Match.SplitPoints
import Phrasebook.Proofs.Step
import Phrasebook.Proofs.Text.Standing

/-!
# Patterns that start with a word

Most syntax starts with a word of its own. A line that starts with another word is turned down before anything
in it is read; and where a placeholder is all that stands behind the word, it is filled with the whole rest of the
line.
-/

namespace Phrasebook.Match
open Text Pattern

variable {ρ α : Type} {pattern : Pattern} {line : Line}
  {resolve : Placeholder → Nat → Nat → Parsing (Outcome ρ α)} {c c' : Context}

/-- A literal does not fit where a text starts with another letter. -/
theorem matchLiteral_other {l : Line} {pos : Nat} {d e : Char} {text literal : List Char}
    (h : l.Stands pos (d :: text)) (solid : isBlank d = false) (word : e ≠ ' ') (other : sameLetter d e = false) :
    l.matchLiteral pos (e :: literal) = none := by
  have space : (e == ' ') = false := beq_eq_false_iff_ne.2 word
  simp only [Line.matchLiteral, h.skipBlanks solid, Line.matchFrom, space, h.head, other, Bool.false_eq_true,
    if_false]

/-- Behind a capture that nothing but the end may follow there is only the end. -/
theorem splitPoints_end {l : Line} {start : Nat} (some_ : start < l.size) (cuts : l.isBoundary start = true)
    (solid : l.dropBlanks start l.size = l.size) : splitPoints l { canEnd := true } start l.size = [l.size] := by
  have nowhere (b : Brackets) (pos : Nat) : stopsFrom l { canEnd := true } start l.size b pos = [] := by
    fun_induction stopsFrom l { canEnd := true } start l.size b pos with
    | case1 => rfl
    | case2 b pos inside c there later stops ih => simp [stopsBefore] at stops
    | case3 b pos inside c there later stops ih => exact ih
    | case4 => rfl
  have outside : l.isBoundary l.size = true := by
    simp [Line.isBoundary, Line.wordAfter, Line.size]
  have last : endBefore? l start l.size = some l.size := by
    simp only [endBefore?, solid, some_, outside, decide_true, Bool.and_self, if_true]
  have starts : (decide (l.size ≤ start) || !l.isBoundary start) = false := by
    simp [cuts, some_]
  unfold splitPoints
  rw [if_neg (by rw [starts]; exact Bool.false_ne_true)]
  simp [nowhere, last, withoutRepeats]

/-- A text that ends with no blank fills all of a line from its place on. -/
theorem splitPoints_rest {l : Line} {start : Nat} {text : List Char} {e : Char} (here : l.Stands start (text ++ [e]))
    (whole : start + (text ++ [e]).length = l.size) (cuts : l.isBoundary start = true) (solid : isBlank e = false) :
    splitPoints l { canEnd := true } start l.size = [l.size] := by
  have dropped := here.dropBlanks solid
  rw [whole] at dropped
  exact splitPoints_end (by simp only [List.length_append, List.length_cons] at whole; omega) cuts dropped

/-- What is matched is all of a line from a place on. -/
def restTask (pattern : Pattern) (line : Line) (start : Nat)
    (resolve : Placeholder → Nat → Nat → Parsing (Outcome ρ α)) : Task Parsing ρ α :=
  { pattern, line, region := line, start, stop := line.size,
    isMatch := fun x text => x.regex.isMatch text, resolve }

theorem run_eq_otherwise (start : Nat) :
    Match.run pattern line start line.size resolve =
      ((restTask pattern line start resolve).search { pc := 0, pos := start } []).otherwise
        (fun memory => pure (.error (memory.failure start))) {} := by
  have run := (restTask pattern line start resolve).loop_eq_search { pc := 0, pos := start } {} rfl
  unfold Match.run runWith
  dsimp only
  rw [line.before_size]
  exact run

/-- **A line that starts with another letter is turned down** before anything in it is read. -/
theorem ends_run_other {start : Nat} {d e : Char} {text word : List Char}
    (first : pattern.program[0]? = some (.lit (e :: word))) (here : line.Stands start (d :: text))
    (solid : isBlank d = false) (letter : e ≠ ' ') (other : sameLetter d e = false) :
    ∃ failure, ∀ c, Ends (Match.run pattern line start line.size resolve) c (.error failure) c := by
  have unfit : line.matchLiteral start (e :: word) = none := matchLiteral_other here solid letter other
  have fails : (restTask pattern line start resolve).exec { pc := 0, pos := start } =
      .fail (line.skipBlanks start) (.expected 0) := by
    simp only [Task.exec, restTask, first, unfit]
  rw [run_eq_otherwise, Task.search_fail fails, Search.fail_otherwise]
  exact ⟨_, fun _ => rfl⟩

/-- **The whole rest of a line fills the placeholder** behind a word, and is read once. -/
theorem ends_run_word {start : Nat} {word inner : List Char} {d e : Char} {p : Placeholder} {value : α}
    (program : pattern.program = #[.lit word, .boundary, .slot 0 { canEnd := true }, .stop])
    (placeholders : pattern.placeholders = [p]) (needed : p.nullable = false) (solid : ' ' ∉ word)
    (here : line.Stands start (word ++ ' ' :: (d :: inner ++ [e])))
    (whole : start + (word ++ ' ' :: (d :: inner ++ [e])).length = line.size)
    (begins : line.skipBlanks start = start) (left : isBlank d = false) (right : isBlank e = false)
    (answer : Ends (resolve p (start + word.length + 1) line.size) c (.found value) c') :
    Ends (Match.run pattern line start line.size resolve) c
      (.ok { arguments := [some value], mark := 0, captures := [], tags := [] }) c' := by
  have blank : line.Stands (start + word.length) (' ' :: (d :: inner ++ [e])) := here.right
  have rest : line.Stands (start + word.length + 1) ((d :: inner) ++ [e]) := blank.tail
  have skipped : line.skipBlanks (start + word.length) = start + word.length + 1 := blank.skipBlank left
  have size : start + word.length + 1 + ((d :: inner) ++ [e]).length = line.size := by
    rw [← whole]
    simp only [List.length_append, List.length_cons]
    omega
  have cuts : line.isBoundary (start + word.length + 1) = true :=
    Line.isBoundary_succ (Line.blankAt_iff.2 ⟨' ', blank.head, by decide⟩)
  have ends : splitPoints line { canEnd := true } (start + word.length + 1) line.size = [line.size] :=
    splitPoints_rest rest size cuts right
  -- the program has four instructions, and each goes one way
  let task := restTask pattern line start resolve
  have fits : line.matchLiteral start word = some (start + word.length) := by
    rw [Line.matchLiteral, begins]
    exact here.left.matchFrom solid
  have lit : task.exec { pc := 0, pos := start } = .go { pc := 1, pos := start + word.length } := by
    simp [task, Task.exec, restTask, program, fits]
  have boundary : task.exec { pc := 1, pos := start + word.length } =
      .go { pc := 2, pos := start + word.length } := by
    simp [task, Task.exec, restTask, program, skipped, cuts]
  have slot : task.exec { pc := 2, pos := start + word.length } =
      .capture (.slot { pc := 2, pos := start + word.length } 0 p (start + word.length + 1) [some line.size]) := by
    simp [task, Task.exec, restTask, program, placeholders, skipped, Task.endsOf, ends, needed]
  have done : task.exec { pc := 3, pos := line.size, trail := 1 } = .done := by
    simp [task, Task.exec, restTask, program, line.skipBlanks_size]
  have answered : ∃ memory, Ends (task.answer {} 0 p (start + word.length + 1) line.size) c
      (.found value, memory) c' := by
    simp only [Task.answer, Table.get?_empty]
    exact ⟨_, answer.bind rfl⟩
  obtain ⟨memory, answered⟩ := answered
  have filled : Ends (task.search { pc := 0, pos := start } [] {}) c
      (some { arguments := [some value], mark := 0, captures := [], tags := [] }, memory) c' := by
    have behind : task.after { pc := 2, pos := start + word.length } line.size [.argument 0 (some value)] =
        .found (.ofTrail 1 0 [.argument 0 (some value)]) := by
      have one : task.pattern.placeholders.length = 1 := by
        show pattern.placeholders.length = 1
        rw [placeholders]
        rfl
      show task.search { pc := 3, pos := line.size, trail := 1 } _ = _
      rw [Task.search_done done, one]
    have first : Ends (task.filling 0 p (start + word.length + 1) line.size (fun value =>
        task.after { pc := 2, pos := start + word.length } line.size [.argument 0 (some value)]) {}) c
        (some { arguments := [some value], mark := 0, captures := [], tags := [] }, memory) c' := by
      refine answered.bind ?_
      dsimp only
      rw [behind]
      rfl
    rw [Task.search_go lit, Task.search_go boundary, Task.search_slot slot]
    exact first.bind rfl
  rw [run_eq_otherwise]
  exact filled.bind rfl

end Phrasebook.Match
