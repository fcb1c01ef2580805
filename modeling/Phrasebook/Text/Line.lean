import Phrasebook.Text.Words

/-!
# Positions in a line

A line is an array of characters, and a position stands before one of them or at the end. Positions
count characters; only what is shown to the outside counts bytes, by `byteOffset`. Lines are read with
blanks skipped and letter case forgotten, and words are never cut in two.
-/

namespace Phrasebook.Text

/-- A line of text by its characters. -/
structure Line where
  chars : Array Char
deriving DecidableEq, Repr, Inhabited

namespace Line

/-- The line with these characters. -/
def ofList (cs : List Char) : Line := ⟨cs.toArray⟩

/-- The line with the characters of a string. -/
def ofString (s : String) : Line := ofList s.toList

/-- The number of characters, which is the last position. -/
def size (l : Line) : Nat := l.chars.size

/-- The part of the line before a position. -/
def before (l : Line) (stop : Nat) : Line := ⟨l.chars.extract 0 stop⟩

/-- The characters between two positions. -/
def slice (l : Line) (start stop : Nat) : List Char := (l.chars.extract start stop).toList

/-- The characters between two positions as a string. -/
def text (l : Line) (start stop : Nat) : String := String.ofList (l.slice start stop)

/-- The number of bytes before a position. -/
def byteOffset (l : Line) : Nat → Nat
  | 0 => 0
  | i + 1 => l.byteOffset i + ((l.chars[i]?).map Char.utf8Size).getD 0

/-- The position with this many bytes before it, if there is one, else the next one. -/
def ofByteOffset (l : Line) (bytes : Nat) : Nat :=
  go bytes l.chars.toList
where
  go (bytes : Nat) : List Char → Nat
    | [] => 0
    | c :: rest => if bytes = 0 then 0 else go (bytes - c.utf8Size) rest + 1

/-- The first position from `i` on that stands before no blank. -/
def skipBlanks (l : Line) (i : Nat) : Nat :=
  if h : i < l.chars.size then
    if isBlank l.chars[i] then l.skipBlanks (i + 1) else i
  else i
termination_by l.chars.size - i

/-- The last position up to `stop` that stands after no blank, but not before `start`. -/
def dropBlanks (l : Line) (start : Nat) : Nat → Nat
  | 0 => 0
  | stop + 1 =>
    if start ≤ stop then
      match l.chars[stop]? with
      | some c => if isBlank c then l.dropBlanks start stop else stop + 1
      | none => stop + 1
    else stop + 1

/-- The stretch between two positions without the blanks at its ends. -/
def trimmed (l : Line) (start stop : Nat) : Nat × Nat :=
  let start := min (l.skipBlanks start) stop
  (start, l.dropBlanks start stop)

/-- A character that makes up words stands before the position. -/
def wordBefore (l : Line) (i : Nat) : Bool :=
  match i with
  | 0 => false
  | j + 1 => (l.chars[j]?).any isWordChar

/-- A character that makes up words stands after the position. -/
def wordAfter (l : Line) (i : Nat) : Bool :=
  (l.chars[i]?).any isWordChar

/-- The position does not cut a word in two. -/
def isBoundary (l : Line) (i : Nat) : Bool :=
  !(l.wordBefore i && l.wordAfter i)

/-- The position after a literal that starts exactly at `i`. A space of the literal stands for one or
more blanks. -/
def matchFrom (l : Line) : List Char → Nat → Option Nat
  | [], i => some i
  | c :: literal, i =>
    if c == ' ' then
      let j := l.skipBlanks i
      if j == i then none else l.matchFrom literal j
    else
      match l.chars[i]? with
      | some found => if sameLetter found c then l.matchFrom literal (i + 1) else none
      | none => none

/-- The position after a literal that starts at `i` or after the blanks there. -/
def matchLiteral (l : Line) (i : Nat) (literal : List Char) : Option Nat :=
  l.matchFrom literal (l.skipBlanks i)

/-- Skipping blanks never goes back. -/
theorem le_skipBlanks (l : Line) (i : Nat) : i ≤ l.skipBlanks i := by
  fun_induction skipBlanks l i with
  | case1 => omega
  | case2 => omega
  | case3 => omega

/-- A literal that fits never goes back. -/
theorem le_of_matchFrom {l : Line} {literal : List Char} {i j : Nat}
    (h : l.matchFrom literal i = some j) : i ≤ j := by
  induction literal generalizing i with
  | nil => simp [matchFrom] at h; omega
  | cons c literal ih =>
    have := l.le_skipBlanks i
    simp only [matchFrom] at h
    split at h
    · split at h
      · cases h
      · exact Nat.le_trans this (ih h)
    · split at h
      · split at h
        · exact Nat.le_trans (Nat.le_succ i) (ih h)
        · cases h
      · cases h

/-- Dropping blanks never goes beyond the end. -/
theorem dropBlanks_le (l : Line) (start stop : Nat) : l.dropBlanks start stop ≤ stop := by
  induction stop with
  | zero => exact Nat.le_refl 0
  | succ stop ih =>
    rw [dropBlanks]
    split
    · split
      · split
        · exact Nat.le_succ_of_le ih
        · exact Nat.le_refl _
      · exact Nat.le_refl _
    · exact Nat.le_refl _

/-- Dropping blanks stops at the start. -/
theorem le_dropBlanks (l : Line) {start stop : Nat} (h : start ≤ stop) : start ≤ l.dropBlanks start stop := by
  induction stop with
  | zero => exact h
  | succ stop ih =>
    rw [dropBlanks]
    split
    case isTrue inside =>
      split
      · split
        · exact ih inside
        · exact h
      · exact h
    case isFalse => exact h

/-- What is left without the blanks at its ends lies within the stretch. -/
theorem trimmed_bounds (l : Line) {start stop : Nat} (h : start ≤ stop) :
    start ≤ (l.trimmed start stop).1 ∧ (l.trimmed start stop).1 ≤ (l.trimmed start stop).2 ∧
      (l.trimmed start stop).2 ≤ stop := by
  have ahead := l.le_skipBlanks start
  refine ⟨?_, l.le_dropBlanks (Nat.min_le_right _ _), l.dropBlanks_le _ _⟩
  simp only [trimmed]
  omega

theorem byteOffset_mono (l : Line) {i j : Nat} (h : i ≤ j) : l.byteOffset i ≤ l.byteOffset j := by
  induction h with
  | refl => exact Nat.le_refl _
  | step _ ih => exact Nat.le_trans ih (Nat.le_add_right _ _)

/-- Every character takes up bytes. -/
theorem byteOffset_lt (l : Line) {i j : Nat} (h : i < j) (hj : j ≤ l.size) : l.byteOffset i < l.byteOffset j := by
  have inside : i < l.chars.size := Nat.lt_of_lt_of_le h hj
  have next : l.byteOffset (i + 1) = l.byteOffset i + l.chars[i].utf8Size := by
    simp [byteOffset, inside]
  have positive := Char.utf8Size_pos l.chars[i]
  have := l.byteOffset_mono (i := i + 1) (j := j) h
  omega

/-- Different positions stand behind different numbers of bytes. -/
theorem byteOffset_inj (l : Line) {i j : Nat} (hi : i ≤ l.size) (hj : j ≤ l.size)
    (h : l.byteOffset i = l.byteOffset j) : i = j := by
  rcases Nat.lt_trichotomy i j with less | same | more
  · have := l.byteOffset_lt less hj
    omega
  · exact same
  · have := l.byteOffset_lt more hi
    omega

@[simp] theorem size_before (l : Line) (stop : Nat) : (l.before stop).size = min stop l.size := by
  simp [before, size]

end Line

end Phrasebook.Text
