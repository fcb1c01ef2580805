import Phrasebook.Text.Character

/-!
# Letter case and words

A character that makes up words keeps doing so in its small form, and only such a character has another small
form. So where two characters are the same up to letter case, both make up words or none does. A small form is
its own small form, so two characters are the same up to letter case if and only if their small forms are.
-/

namespace Phrasebook.Text

/-- All code points from one to another are characters beyond ASCII that make up words, and stand in one range
of the table. -/
def lettersFrom (first last : Nat) : Bool :=
  Nat.ble 0x80 first && (Nat.ble last 0xD7FF || (Nat.ble 0xE000 first && Nat.ble last 0x10FFFF)) &&
    alphabeticRanges.any fun r => Nat.ble r.1 first && Nat.ble last r.2

theorem isWordChar_of_lettersFrom {first last n : Nat} (h : lettersFrom first last = true)
    (after : first ≤ n) (before : n ≤ last) : isWordChar (Char.ofNat n) = true := by
  simp only [lettersFrom, Bool.and_eq_true, Bool.or_eq_true, Nat.ble_eq, List.any_eq_true] at h
  obtain ⟨⟨beyond, valid⟩, r, mem, low, high⟩ := h
  have isChar : n.isValidChar := by
    unfold Nat.isValidChar
    omega
  have toNat : (Char.ofNat n).toNat = n := by
    rw [Char.ofNat, dif_pos isChar]
    rfl
  have letter : inRanges alphabeticRanges n = true := inRanges_iff.2 ⟨r, mem, by omega, by omega⟩
  have other : isAscii (Char.ofNat n) = false := by
    rw [isAscii, toNat, decide_eq_false_iff_not]
    omega
  simp [isWordChar, isAlphanumeric, isAlphabetic, other, toNat, letter]

/-- A run of capitals: the first and the last, the step between two of them and the distance to the small
form. -/
abbrev LowerRun := Nat × Nat × Nat × Int

namespace LowerRun

/-- A code point is a capital of a run. -/
def Holds (run : LowerRun) (n : Nat) : Prop :=
  run.1 ≤ n ∧ n ≤ run.2.1 ∧ (n - run.1) % run.2.2.1 = 0

/-- The capitals of a run. -/
def capitals (run : LowerRun) : List Nat :=
  (List.range' run.1 (run.2.1 + 1 - run.1)).filter fun n => (n - run.1) % run.2.2.1 == 0

/-- The small form of a capital of a run. -/
def small (run : LowerRun) (n : Nat) : Nat :=
  ((n : Int) + run.2.2.2).toNat

/-- All capitals of a run and their small forms make up words. Where one range of the table holds them, it is
not asked for each of them. -/
def isLetters (run : LowerRun) : Bool :=
  (lettersFrom run.1 run.2.1 && lettersFrom (run.small run.1) (run.small run.2.1)) ||
    run.capitals.all fun n => isWordChar (Char.ofNat n) && isWordChar (Char.ofNat (run.small n))

theorem isWordChar_of_isLetters {run : LowerRun} (letters : run.isLetters = true) {n : Nat}
    (holds : run.Holds n) :
    isWordChar (Char.ofNat n) = true ∧ isWordChar (Char.ofNat (run.small n)) = true := by
  obtain ⟨after, before, step⟩ := holds
  simp only [isLetters, Bool.or_eq_true, Bool.and_eq_true, List.all_eq_true] at letters
  rcases letters with ⟨capital, small⟩ | each
  · refine ⟨isWordChar_of_lettersFrom capital after before, isWordChar_of_lettersFrom small ?_ ?_⟩ <;>
      simp only [LowerRun.small] <;> omega
  · refine each n (List.mem_filter.2 ⟨List.mem_range'_1.2 ⟨after, by omega⟩, ?_⟩)
    rwa [beq_iff_eq]

end LowerRun

theorem isLetters_of_mem {run : LowerRun} (mem : run ∈ lowerRuns) : run.isLetters = true := by
  have all : (lowerRuns.all LowerRun.isLetters) = true := by decide +kernel
  exact List.all_eq_true.1 all run mem

/-- The capitals of ASCII and their small forms make up words. -/
theorem isWordChar_of_capital {n : Nat} (after : 65 ≤ n) (before : n ≤ 90) :
    isWordChar (Char.ofNat n) = true ∧ isWordChar (Char.ofNat (n + 32)) = true := by
  have each : ∀ n ∈ List.range' 65 26,
      isWordChar (Char.ofNat n) = true ∧ isWordChar (Char.ofNat (n + 32)) = true := by decide
  exact each n (List.mem_range'_1.2 ⟨after, by omega⟩)

/-- The run of a capital beyond ASCII. -/
def runOf? (c : Char) : Option LowerRun :=
  lowerRuns.find? fun (first, last, step, _) =>
    first ≤ c.toNat && c.toNat ≤ last && (c.toNat - first) % step == 0

theorem holds_of_runOf? {c : Char} {run : LowerRun} (found : runOf? c = some run) :
    run ∈ lowerRuns ∧ run.Holds c.toNat := by
  have fits := List.find?_some found
  simp only [Bool.and_eq_true, decide_eq_true_eq, beq_iff_eq] at fits
  exact ⟨List.mem_of_find?_eq_some found, fits.1.1, fits.1.2, fits.2⟩

/-- How the small form of a character is found. -/
inductive HasSmall (c : Char) : List Char → Prop where
  | ascii (here : isAscii c = true) : HasSmall c [lowerAscii c]
  | dotted (here : c = '\u0130') : HasSmall c ['i', '\u0307']
  | capital {run : LowerRun} (beyond : isAscii c = false) (mem : run ∈ lowerRuns) (holds : run.Holds c.toNat) :
    HasSmall c [Char.ofNat (run.small c.toNat)]
  | other (beyond : isAscii c = false) (undotted : c ≠ '\u0130') (none : runOf? c = none) : HasSmall c [c]

theorem hasSmall (c : Char) : HasSmall c (lowerChar c) := by
  unfold lowerChar
  split
  next ascii => exact .ascii ascii
  next beyond =>
    have beyond : isAscii c = false := by simpa using beyond
    split
    next dotted =>
      have same : c = Char.ofNat 0x130 := by rw [← beq_iff_eq.1 dotted, Char.ofNat_toNat]
      exact .dotted same
    next undotted =>
      split
      next first last step distance found =>
        obtain ⟨mem, holds⟩ := holds_of_runOf? found
        exact .capital beyond mem holds
      next none =>
        refine .other beyond ?_ none
        rintro rfl
        exact undotted (by decide)

/-- A character is its own small form, or makes up words as its small form does. -/
theorem lowerChar_eq (c : Char) :
    lowerChar c = [c] ∨ isWordChar c = true ∧ ∀ d, lowerChar c = [d] → isWordChar d = true := by
  have small := hasSmall c
  generalize lowerChar c = text at small
  cases small with
  | ascii =>
    unfold lowerAscii
    split
    next capital =>
      simp only [Bool.and_eq_true, decide_eq_true_eq, Char.le_def, UInt32.le_iff_toNat_le] at capital
      have word := isWordChar_of_capital (n := c.toNat) capital.1 capital.2
      rw [Char.ofNat_toNat] at word
      refine .inr ⟨word.1, fun d same => ?_⟩
      cases same
      exact word.2
    next => exact .inl rfl
  | dotted here =>
    subst here
    exact .inr ⟨by decide +kernel, nofun⟩
  | capital _ mem holds =>
    have word := LowerRun.isWordChar_of_isLetters (isLetters_of_mem mem) holds
    rw [Char.ofNat_toNat] at word
    refine .inr ⟨word.1, fun d same => ?_⟩
    cases same
    exact word.2
  | other => exact .inl rfl

namespace LowerRun

/-- No small form of a capital of the first run is a capital of the second. Where the runs lie apart, it is not
asked for each of them. -/
def isApart (run other : LowerRun) : Bool :=
  Nat.blt (run.small run.2.1) other.1 || Nat.blt other.2.1 (run.small run.1) ||
    run.capitals.all fun n => !(other.1 ≤ run.small n && run.small n ≤ other.2.1 &&
      (run.small n - other.1) % other.2.2.1 == 0)

theorem not_holds_small {run other : LowerRun} (apart : run.isApart other = true) {n : Nat}
    (holds : run.Holds n) : ¬ other.Holds (run.small n) := by
  obtain ⟨after, before, step⟩ := holds
  intro ⟨after', before', step'⟩
  simp only [isApart, Bool.or_eq_true, Nat.blt_eq, List.all_eq_true] at apart
  rcases apart with (less | more) | each
  · simp only [small] at less after' before'
    omega
  · simp only [small] at more after' before'
    omega
  · have mem : n ∈ run.capitals := by
      refine List.mem_filter.2 ⟨List.mem_range'_1.2 ⟨after, by omega⟩, ?_⟩
      rwa [beq_iff_eq]
    have none := each n mem
    simp [after', before', step'] at none

end LowerRun

/-- All capitals: those of ASCII, the one whose small form is two characters, and those of the table. -/
def allRuns : List LowerRun :=
  (65, 90, 1, 32) :: (0x130, 0x130, 1, 0) :: lowerRuns

theorem isApart_of_mem {run other : LowerRun} (mem : run ∈ lowerRuns) (mem' : other ∈ allRuns) :
    run.isApart other = true := by
  have all : (lowerRuns.all fun run => allRuns.all (LowerRun.isApart run)) = true := by decide +kernel
  exact List.all_eq_true.1 (List.all_eq_true.1 all run mem) other mem'

/-- The code point of the small form of a capital of a run. -/
theorem toNat_small {run : LowerRun} (mem : run ∈ lowerRuns) {n : Nat} (holds : run.Holds n) :
    (Char.ofNat (run.small n)).toNat = run.small n := by
  have word := (LowerRun.isWordChar_of_isLetters (isLetters_of_mem mem) holds).2
  by_cases valid : (run.small n).isValidChar
  · rw [Char.ofNat, dif_pos valid]
    rfl
  · rw [Char.ofNat, dif_neg valid] at word
    exact absurd word (by decide)

/-- The small form of a character is its own small form. -/
theorem lowerAscii_lowerAscii (c : Char) : lowerAscii (lowerAscii c) = lowerAscii c := by
  unfold lowerAscii
  split
  next capital =>
    simp only [Bool.and_eq_true, decide_eq_true_eq, Char.le_def, UInt32.le_iff_toNat_le] at capital
    have each : ∀ n ∈ List.range' 65 26, lowerAscii (Char.ofNat (n + 32)) = Char.ofNat (n + 32) := by decide
    exact each c.toNat (List.mem_range'_1.2 ⟨capital.1, by have : c.toNat ≤ 90 := capital.2; omega⟩)
  next => rfl

theorem isAscii_lowerAscii (c : Char) : isAscii (lowerAscii c) = isAscii c := by
  unfold lowerAscii
  split
  next capital =>
    simp only [Bool.and_eq_true, decide_eq_true_eq, Char.le_def, UInt32.le_iff_toNat_le] at capital
    have upper : c.toNat ≤ 90 := capital.2
    have each : ∀ n ∈ List.range' 65 26, isAscii (Char.ofNat (n + 32)) = true := by decide
    rw [each c.toNat (List.mem_range'_1.2 ⟨capital.1, by omega⟩)]
    have small : c.toNat < 0x80 := by omega
    simp [isAscii, small]
  next => rfl

/-- **A small form has no other small form.** -/
theorem lowerChar_of_mem {c d : Char} (mem : d ∈ lowerChar c) : lowerChar d = [d] := by
  have small := hasSmall c
  generalize same : lowerChar c = text at small mem
  cases small with
  | ascii ascii =>
    obtain rfl := List.mem_singleton.1 mem
    rw [lowerChar, if_pos (by rwa [isAscii_lowerAscii]), lowerAscii_lowerAscii]
  | dotted here =>
    simp only [List.mem_cons, List.not_mem_nil, or_false] at mem
    rcases mem with rfl | rfl <;> decide +kernel
  | @capital run _ among holds =>
    obtain rfl := List.mem_singleton.1 mem
    have toNat := toNat_small among holds
    have apart {other : LowerRun} (mem' : other ∈ allRuns) : ¬ other.Holds (run.small c.toNat) :=
      LowerRun.not_holds_small (isApart_of_mem among mem') holds
    have small' := hasSmall (Char.ofNat (run.small c.toNat))
    generalize lowerChar (Char.ofNat (run.small c.toNat)) = text at small'
    cases small' with
    | ascii ascii =>
      have uncapital : ¬ LowerRun.Holds (65, 90, 1, 32) (run.small c.toNat) := apart List.mem_cons_self
      have own : lowerAscii (Char.ofNat (run.small c.toNat)) = Char.ofNat (run.small c.toNat) := by
        unfold lowerAscii
        rw [if_neg]
        simp only [Bool.and_eq_true, decide_eq_true_eq, Char.le_def, UInt32.le_iff_toNat_le]
        intro ⟨after, before⟩
        refine uncapital ⟨?_, ?_, Nat.mod_one _⟩
        · rw [← toNat]; exact after
        · rw [← toNat]; exact before
      rw [own]
    | dotted here =>
      refine absurd ?_ (apart (List.mem_cons_of_mem _ List.mem_cons_self))
      rw [← toNat, here]
      exact ⟨by decide, by decide, by decide⟩
    | capital _ among' holds' =>
      rw [toNat] at holds'
      exact absurd holds' (apart (List.mem_cons_of_mem _ (List.mem_cons_of_mem _ among')))
    | other => rfl
  | other =>
    obtain rfl := List.mem_singleton.1 mem
    exact same

/-- **Two characters are the same up to letter case if and only if their small forms are.** -/
theorem sameLetter_iff {a b : Char} : sameLetter a b = true ↔ lowerChar a = lowerChar b := by
  simp only [sameLetter, Bool.or_eq_true, beq_iff_eq]
  exact ⟨fun h => h.elim (congrArg lowerChar) id, .inr⟩

/-- A character and its small form in ASCII have the same small form. -/
@[simp] theorem lowerChar_lowerAscii (c : Char) : lowerChar (lowerAscii c) = lowerChar c := by
  cases ascii : isAscii c with
  | true =>
    rw [lowerChar, if_pos (by rwa [isAscii_lowerAscii]), lowerAscii_lowerAscii, lowerChar, if_pos ascii]
  | false =>
    have own : lowerAscii c = c := by
      unfold lowerAscii
      rw [if_neg]
      simp only [Bool.and_eq_true, decide_eq_true_eq, Char.le_def, UInt32.le_iff_toNat_le]
      intro ⟨after, before⟩
      have upper : c.toNat ≤ 90 := before
      have : c.toNat < 0x80 := by omega
      simp [isAscii, this] at ascii
    rw [own]

/-- Only one character has a small form of several characters. -/
theorem lowerChar_eq_singleton {c : Char} (undotted : c ≠ '\u0130') : ∃ d, lowerChar c = [d] := by
  have small := hasSmall c
  generalize lowerChar c = text at small
  cases small with
  | ascii => exact ⟨_, rfl⟩
  | dotted here => exact absurd here undotted
  | capital => exact ⟨_, rfl⟩
  | other => exact ⟨_, rfl⟩

/-- Every character has a small form. -/
theorem lowerChar_ne_nil (c : Char) : lowerChar c ≠ [] := by
  have small := hasSmall c
  generalize lowerChar c = text at small
  cases small <;> simp

/-- **What is the same up to letter case as a character that makes up no words makes up none.** -/
theorem not_isWordChar_of_sameLetter {found c : Char} (same : sameLetter found c = true)
    (other : isWordChar c = false) : isWordChar found = false := by
  simp only [sameLetter, Bool.or_eq_true, beq_iff_eq] at same
  rcases same with rfl | small
  · exact other
  rcases lowerChar_eq c with own | ⟨word, -⟩
  · rw [own] at small
    rcases lowerChar_eq found with own' | ⟨-, word⟩
    · rw [own'] at small
      cases small
      exact other
    · rw [word c small] at other
      cases other
  · rw [word] at other
    cases other

end Phrasebook.Text
