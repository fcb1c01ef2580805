import Phrasebook.Parse.Form
import Phrasebook.Match.Extent
import Phrasebook.Proofs.Text.Standing

/-!
# The same text in two lines

Two lines may hold the same text from a place of each on, with other text before it. Scanning looks back one
character at most, to see whether a word is cut in two; so if the two places agree on that, every scan that
starts behind them stops at corresponding places.
-/

namespace Phrasebook.Text

/-- The position that corresponds to another one, where the text from `low` on stands from `low'` on. -/
def shift (low low' pos : Nat) : Nat :=
  low' + (pos - low)

section Shift

variable {low low' i j : Nat}

theorem le_shift (low low' pos : Nat) : low' ≤ shift low low' pos :=
  Nat.le_add_right _ _

@[simp] theorem shift_self (low low' : Nat) : shift low low' low = low' := by
  simp [shift]

@[simp] theorem shift_zero (pos : Nat) : shift 0 0 pos = pos := by
  simp [shift]

theorem shift_succ (h : low ≤ i) : shift low low' (i + 1) = shift low low' i + 1 := by
  unfold shift
  omega

theorem shift_sub_one (h : low < i) : shift low low' (i - 1) = shift low low' i - 1 := by
  unfold shift
  omega

theorem shift_le_iff (hj : low ≤ j) : shift low low' i ≤ shift low low' j ↔ i ≤ j := by
  unfold shift
  omega

theorem shift_lt_iff (hi : low ≤ i) : shift low low' i < shift low low' j ↔ i < j := by
  unfold shift
  omega

theorem shift_inj (hi : low ≤ i) (hj : low ≤ j) : shift low low' i = shift low low' j ↔ i = j := by
  unfold shift
  omega

theorem shift_beq (hi : low ≤ i) (hj : low ≤ j) : (shift low low' i == shift low low' j) = (i == j) := by
  rw [Bool.eq_iff_iff, beq_iff_eq, beq_iff_eq, shift_inj hi hj]

theorem shift_min (low low' i j : Nat) :
    shift low low' (min i j) = min (shift low low' i) (shift low low' j) := by
  unfold shift
  omega

theorem shift_max (low low' i j : Nat) :
    shift low low' (max i j) = max (shift low low' i) (shift low low' j) := by
  unfold shift
  omega

end Shift

namespace Line

section Before

variable {l : Line} {pos start stop high : Nat}

theorem getElem?_before (h : pos < stop) : (l.before stop).chars[pos]? = l.chars[pos]? := by
  rcases Nat.lt_or_ge pos l.chars.size with inside | outside
  · simp only [before, Array.getElem?_extract, Nat.zero_add, Nat.sub_zero]
    rw [if_pos (Nat.lt_min.2 ⟨h, inside⟩)]
  · rw [Array.getElem?_eq_none outside, Array.getElem?_eq_none]
    simp only [before, Array.size_extract]
    omega

theorem byteOffset_before (l : Line) (h : pos ≤ stop) : (l.before stop).byteOffset pos = l.byteOffset pos := by
  induction pos with
  | zero => rfl
  | succ pos ih => rw [byteOffset, byteOffset, getElem?_before h, ih (Nat.le_of_succ_le h)]

theorem before_before (l : Line) (h : stop ≤ high) : (l.before high).before stop = l.before stop := by
  simp only [before, Array.extract_extract, Nat.zero_add, Nat.min_eq_left h]

theorem isBoundary_before (h : pos < stop) : (l.before stop).isBoundary pos = l.isBoundary pos := by
  simp only [isBoundary, wordAfter, getElem?_before h]
  cases pos with
  | zero => rfl
  | succ pos => simp only [wordBefore, getElem?_before (Nat.lt_of_succ_lt h)]

/-- The end of a line is a boundary. -/
theorem isBoundary_before_self (l : Line) (stop : Nat) : (l.before stop).isBoundary stop = true := by
  have none : (l.before stop).chars[stop]? = none := by
    rw [Array.getElem?_eq_none]
    simp only [before, Array.size_extract]
    omega
  simp [isBoundary, wordAfter, none]

theorem slice_before (l : Line) (start : Nat) (h : stop ≤ high) :
    (l.before high).slice start stop = l.slice start stop := by
  simp only [slice, before, Array.extract_extract, Nat.zero_add, Nat.min_eq_left h]

theorem dropBlanks_before (l : Line) (start : Nat) (h : stop ≤ high) :
    (l.before high).dropBlanks start stop = l.dropBlanks start stop := by
  induction stop with
  | zero => rfl
  | succ stop ih => rw [dropBlanks, dropBlanks, getElem?_before h, ih (Nat.le_of_succ_le h)]

/-- Blanks are skipped up to the end. -/
theorem skipBlanks_before (l : Line) (start stop : Nat) :
    min ((l.before stop).skipBlanks start) stop = min (l.skipBlanks start) stop := by
  have ahead := l.le_skipBlanks start
  rcases Nat.lt_or_ge (l.skipBlanks start) stop with inside | beyond
  · have same : (l.before stop).skipBlanks start = l.skipBlanks start := by
      refine skipBlanks_eq ahead (fun k from_ less => ?_) ?_
      · rw [BlankAt, getElem?_before (Nat.lt_trans less inside)]
        exact blankAt_of_lt_skipBlanks from_ less
      · rw [BlankAt, getElem?_before inside]
        exact l.not_blankAt_skipBlanks start
    rw [same]
  · have skipped : stop ≤ (l.before stop).skipBlanks start := by
      refine Nat.le_of_not_lt fun less => ?_
      have solid := (l.before stop).not_blankAt_skipBlanks start
      rw [BlankAt, getElem?_before less] at solid
      exact solid (blankAt_of_lt_skipBlanks ((l.before stop).le_skipBlanks start)
        (Nat.lt_of_lt_of_le less beyond))
    rw [Nat.min_eq_right skipped, Nat.min_eq_right beyond]

/-- What stands behind the end of a stretch does not matter to its blanks. -/
theorem trimmed_before (l : Line) (start stop : Nat) :
    (l.before stop).trimmed start stop = l.trimmed start stop := by
  rw [trimmed, trimmed, skipBlanks_before, dropBlanks_before l _ (Nat.le_refl stop)]

end Before

/-- Two lines hold the same text from a place of each on, and a word may start at both places or at none. -/
structure Aligned (l l' : Line) (low low' : Nat) : Prop where
  low_le : low ≤ l.size
  low_le' : low' ≤ l'.size
  chars (i : Nat) : l'.chars[low' + i]? = l.chars[low + i]?
  boundary : l'.isBoundary low' = l.isBoundary low

/-- A line holds the same as itself. -/
theorem Aligned.refl (l : Line) : l.Aligned l 0 0 :=
  ⟨Nat.zero_le _, Nat.zero_le _, fun _ => rfl, rfl⟩

/-- Stretches with the same text are lines that hold the same, if both start at the edge of a word. -/
theorem aligned_of_slice {l l' : Line} {start stop start' stop' : Nat} (h : start ≤ stop)
    (within : stop ≤ l.size) (h' : start' ≤ stop') (within' : stop' ≤ l'.size)
    (text : l'.slice start' stop' = l.slice start stop) (boundary : l.isBoundary start = true)
    (boundary' : l'.isBoundary start' = true) :
    stop' = shift start start' stop ∧
      (l.before stop).Aligned (l'.before (shift start start' stop)) start start' := by
  have size (l : Line) {start stop : Nat} (within : stop ≤ l.size) :
      (l.slice start stop).length = stop - start := by
    rw [length_slice, Nat.min_eq_left within]
  have edge (l : Line) {start stop : Nat} (h : start ≤ stop) (boundary : l.isBoundary start = true) :
      (l.before stop).isBoundary start = true := by
    rcases Nat.eq_or_lt_of_le h with rfl | less
    · exact l.isBoundary_before_self start
    · rwa [isBoundary_before less]
  have char (l : Line) {start stop : Nat} (i : Nat) :
      (l.before stop).chars[start + i]? = (l.slice start stop)[i]? := by
    rw [getElem?_slice]
    split
    next less => exact getElem?_before (by omega)
    next beyond =>
      rw [Array.getElem?_eq_none]
      simp only [before, Array.size_extract]
      omega
  have length := congrArg List.length text
  rw [size l within, size l' within'] at length
  have same : stop' = shift start start' stop := by
    unfold shift
    omega
  refine ⟨same, ?_⟩
  rw [← same]
  constructor
  · rw [size_before]
    omega
  · rw [size_before]
    omega
  · intro i
    rw [char, char, text]
  · rw [edge l h boundary, edge l' h' boundary']

namespace Aligned

variable {l l' : Line} {low low' pos start stop : Nat} (aligned : l.Aligned l' low low')

include aligned

theorem getElem?_shift (h : low ≤ pos) : l'.chars[shift low low' pos]? = l.chars[pos]? := by
  rw [shift, aligned.chars, Nat.add_sub_cancel' h]

theorem size_shift : l'.size = shift low low' l.size := by
  have reached := aligned.low_le
  have reached' := aligned.low_le'
  have ends := aligned.chars (l.size - low)
  have ends' := aligned.chars (l'.size - low')
  rw [Nat.add_sub_cancel' reached, size, Array.getElem?_eq_none (Nat.le_refl l.chars.size),
    Array.getElem?_eq_none_iff] at ends
  rw [Nat.add_sub_cancel' reached', size, Array.getElem?_eq_none (Nat.le_refl l'.chars.size), eq_comm,
    Array.getElem?_eq_none_iff] at ends'
  simp only [size] at *
  unfold shift
  omega

theorem lt_size_iff (h : low ≤ pos) : shift low low' pos < l'.size ↔ pos < l.size := by
  rw [aligned.size_shift, shift_lt_iff h]

theorem blankAt_iff (h : low ≤ pos) : l'.BlankAt (shift low low' pos) ↔ l.BlankAt pos := by
  rw [BlankAt, BlankAt, aligned.getElem?_shift h]

theorem skipBlanks_shift (h : low ≤ pos) :
    l'.skipBlanks (shift low low' pos) = shift low low' (l.skipBlanks pos) := by
  have ahead := l.le_skipBlanks pos
  refine skipBlanks_eq ((shift_le_iff (Nat.le_trans h ahead)).2 ahead) (fun k from_ before => ?_) ?_
  · obtain ⟨k, rfl, later⟩ : ∃ k₀, shift low low' k₀ = k ∧ low ≤ k₀ :=
      ⟨low + (k - low'), by unfold shift at *; omega, by omega⟩
    rw [shift_le_iff later] at from_
    rw [shift_lt_iff later] at before
    exact (aligned.blankAt_iff later).2 (blankAt_of_lt_skipBlanks from_ before)
  · rw [aligned.blankAt_iff (Nat.le_trans h ahead)]
    exact l.not_blankAt_skipBlanks pos

theorem isBoundary_shift (h : low ≤ pos) : l'.isBoundary (shift low low' pos) = l.isBoundary pos := by
  rcases Nat.eq_or_lt_of_le h with rfl | later
  · rw [shift_self, aligned.boundary]
  · obtain ⟨pos, rfl⟩ : ∃ n, pos = n + 1 := ⟨pos - 1, by omega⟩
    have before : low ≤ pos := Nat.le_of_lt_succ later
    simp only [isBoundary, wordAfter, aligned.getElem?_shift h]
    rw [shift_succ before]
    simp only [wordBefore, aligned.getElem?_shift before]

theorem dropBlanks_shift (hs : low ≤ start) (h : low ≤ stop) :
    l'.dropBlanks (shift low low' start) (shift low low' stop) =
      shift low low' (l.dropBlanks start stop) := by
  have unmoved (l : Line) {start stop : Nat} (le : stop ≤ start) : l.dropBlanks start stop = stop := by
    cases stop with
    | zero => rfl
    | succ stop => rw [dropBlanks, if_neg (by omega)]
  induction h with
  | refl => rw [unmoved l hs, unmoved l' ((shift_le_iff hs).2 hs)]
  | @step stop h ih =>
    have h : low ≤ stop := h
    rw [shift_succ h, dropBlanks, dropBlanks, aligned.getElem?_shift h]
    simp only [shift_le_iff h, ih]
    split
    · cases l.chars[stop]? with
      | none => exact (shift_succ h).symm
      | some c =>
        dsimp only
        split
        · rfl
        · exact (shift_succ h).symm
    · exact (shift_succ h).symm

/-- Corresponding stretches have the same number of bytes. -/
theorem byteOffset_shift (h : low ≤ pos) :
    l'.byteOffset (shift low low' pos) + l.byteOffset low = l.byteOffset pos + l'.byteOffset low' := by
  induction h with
  | refl => rw [shift_self, Nat.add_comm]
  | @step pos h ih =>
    have h : low ≤ pos := h
    rw [shift_succ h, byteOffset, byteOffset, aligned.getElem?_shift h]
    omega

theorem slice_shift (hs : low ≤ start) (h : low ≤ stop) :
    l'.slice (shift low low' start) (shift low low' stop) = l.slice start stop := by
  apply List.ext_getElem?
  intro i
  have length : shift low low' stop - shift low low' start = stop - start := by
    unfold shift
    omega
  have there : shift low low' start + i = shift low low' (start + i) := by
    unfold shift
    omega
  rw [getElem?_slice, getElem?_slice, length, there,
    aligned.getElem?_shift (Nat.le_trans hs (Nat.le_add_right _ _))]

theorem before (h : low ≤ stop) : (l.before stop).Aligned (l'.before (shift low low' stop)) low low' where
  low_le := by
    rw [size_before]
    exact Nat.le_min.2 ⟨h, aligned.low_le⟩
  low_le' := by
    rw [size_before]
    exact Nat.le_min.2 ⟨le_shift _ _ _, aligned.low_le'⟩
  chars i := by
    have there : low' + i = shift low low' (low + i) := by
      unfold shift
      omega
    have later : low ≤ low + i := Nat.le_add_right _ _
    simp only [Line.before, Array.getElem?_extract, Nat.zero_add, Nat.sub_zero]
    rw [there, aligned.getElem?_shift later]
    have bound : shift low low' (low + i) < min (shift low low' stop) l'.chars.size ↔
        low + i < min stop l.chars.size := by
      have := aligned.lt_size_iff later
      rw [Nat.lt_min, Nat.lt_min, shift_lt_iff later]
      exact and_congr_right fun _ => this
    simp only [bound]
  boundary := by
    rcases Nat.eq_or_lt_of_le h with rfl | less
    · rw [shift_self, isBoundary_before_self, isBoundary_before_self]
    · have less' : low' < shift low low' stop := by
        unfold shift
        omega
      rw [isBoundary_before less, isBoundary_before less', aligned.boundary]

theorem trimmed_shift (hs : low ≤ start) (h : low ≤ stop) :
    l'.trimmed (shift low low' start) (shift low low' stop) =
      (shift low low' (l.trimmed start stop).1, shift low low' (l.trimmed start stop).2) := by
  have later : low ≤ min (l.skipBlanks start) stop :=
    Nat.le_min.2 ⟨Nat.le_trans hs (l.le_skipBlanks start), h⟩
  simp only [trimmed]
  rw [aligned.skipBlanks_shift hs, ← shift_min, aligned.dropBlanks_shift later h]

theorem matchFrom_shift (literal : List Char) (h : low ≤ pos) :
    l'.matchFrom literal (shift low low' pos) = (l.matchFrom literal pos).map (shift low low') := by
  induction literal generalizing pos with
  | nil => rfl
  | cons c literal ih =>
    have later : low ≤ l.skipBlanks pos := Nat.le_trans h (l.le_skipBlanks pos)
    simp only [matchFrom]
    rw [aligned.skipBlanks_shift h, aligned.getElem?_shift h, shift_beq later h, ih later]
    split
    · split <;> rfl
    · cases l.chars[pos]? with
      | none => rfl
      | some found =>
        dsimp only
        rw [← shift_succ h, ih (Nat.le_succ_of_le h)]
        split <;> rfl

theorem matchLiteral_shift (literal : List Char) (h : low ≤ pos) :
    l'.matchLiteral (shift low low' pos) literal = (l.matchLiteral pos literal).map (shift low low') := by
  rw [matchLiteral, matchLiteral, aligned.skipBlanks_shift h,
    aligned.matchFrom_shift literal (Nat.le_trans h (l.le_skipBlanks pos))]

end Aligned

end Line

end Phrasebook.Text
