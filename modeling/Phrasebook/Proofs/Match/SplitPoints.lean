import Phrasebook.Match.Extent
import Phrasebook.Proofs.Text.Blanks

/-!
# Which ends a capture may have

A place in the text is a stop if nothing that was opened behind the start of a capture is open there, and
what follows the capture may start. The ends of the capture are the stops, and the end of the stretch where
anything or nothing may follow, each without the blanks before it: `mem_splitPoints`. They come in the
order of the text.
-/

namespace Phrasebook.Match
open Text Pattern

namespace Brackets

/-- A character that is no bracket and no quote opens and closes nothing. -/
theorem next_other (b : Brackets) {c : Char} (other : c ∉ ['"', '(', ')', '{', '}']) : b.next c = b := by
  unfold next
  split
  next same => simp_all
  next =>
    split
    · rfl
    · split <;> simp_all

/-- A blank opens and closes nothing. -/
theorem next_blank (b : Brackets) {c : Char} (blank : isBlank c = true) : b.next c = b := by
  apply next_other
  intro mem
  have solid : ['"', '(', ')', '{', '}'].all (fun d => !isBlank d) = true := by decide
  have other := List.all_eq_true.1 solid c mem
  rw [blank] at other
  cases other

end Brackets

end Phrasebook.Match

namespace Phrasebook.Text.Line

variable {l : Line} {i j : Nat} {c : Char}

/-- A stretch and the character behind it. -/
theorem slice_succ (ordered : i ≤ j) (there : l.chars[j]? = some c) :
    l.slice i (j + 1) = l.slice i j ++ [c] := by
  have inside := l.lt_size_of_getElem? there
  simp only [slice, Array.toList_extract, List.extract_eq_take_drop]
  rw [show j + 1 - i = j - i + 1 by omega, List.take_add_one, List.getElem?_drop,
    show i + (j - i) = j by omega, Array.getElem?_toList, there]
  rfl

theorem slice_self (l : Line) (i : Nat) : l.slice i i = [] := by
  simp [slice]

end Phrasebook.Text.Line

namespace Phrasebook.Match
open Text Pattern

variable {l : Line} {follow : Follow} {start stop pos x : Nat}

/-- What was opened from a place on and is open at another. -/
def bracketsAt (l : Line) (start pos : Nat) : Brackets :=
  (l.slice start pos).foldl Brackets.next {}

theorem bracketsAt_self (l : Line) (start : Nat) : bracketsAt l start start = {} := by
  rw [bracketsAt, l.slice_self, List.foldl_nil]

theorem bracketsAt_succ {c : Char} (ordered : start ≤ pos) (there : l.chars[pos]? = some c) :
    bracketsAt l start (pos + 1) = (bracketsAt l start pos).next c := by
  rw [bracketsAt, l.slice_succ ordered there, List.foldl_append, List.foldl_cons, List.foldl_nil]
  rfl

/-- Blanks open and close nothing. -/
theorem bracketsAt_blanks {pos' : Nat} (ordered : start ≤ pos) (ahead : pos ≤ pos')
    (blanks : ∀ k, pos ≤ k → k < pos' → l.BlankAt k) :
    bracketsAt l start pos' = bracketsAt l start pos := by
  induction ahead with
  | refl => rfl
  | @step last ahead ih =>
    have ahead : pos ≤ last := ahead
    obtain ⟨c, there, blank⟩ := Line.blankAt_iff.1 (blanks last ahead (Nat.lt_succ_self last))
    rw [bracketsAt_succ (Nat.le_trans ordered ahead) there, Brackets.next_blank _ blank]
    exact ih fun k from_ before => blanks k from_ (Nat.lt_succ_of_lt before)

/-- What follows a capture may start at a place behind its start, and nothing is open there. -/
structure IsStop (l : Line) (follow : Follow) (start stop pos : Nat) : Prop where
  after : start < pos
  before : pos < stop
  inside : pos < l.size
  closed : (bracketsAt l start pos).isOpen = false
  starts : stopsBefore l follow pos = true

theorem mem_stopsFrom (ordered : start ≤ pos) :
    x ∈ stopsFrom l follow start stop (bracketsAt l start pos) pos ↔
      pos ≤ x ∧ IsStop l follow start stop x := by
  generalize opened : bracketsAt l start pos = b
  fun_induction stopsFrom l follow start stop b pos with
  | case1 b pos before none =>
    refine ⟨fun mem => (List.not_mem_nil mem).elim, ?_⟩
    rintro ⟨ahead, isStop⟩
    have outside := Array.getElem?_eq_none_iff.1 none
    have inside := isStop.inside
    simp only [Line.size] at inside
    omega
  | case2 b pos before c there later stops ih =>
    subst opened
    simp only [Bool.and_eq_true, Bool.not_eq_true', decide_eq_true_eq] at stops
    have here : IsStop l follow start stop pos :=
      ⟨stops.1.2, before, Line.lt_size_of_getElem? there, stops.1.1, stops.2⟩
    have later := ih (by omega) (bracketsAt_succ ordered there)
    rw [List.mem_cons, later]
    constructor
    · rintro (rfl | ⟨ahead, isStop⟩)
      · exact ⟨Nat.le_refl x, here⟩
      · exact ⟨by omega, isStop⟩
    · rintro ⟨ahead, isStop⟩
      rcases Nat.eq_or_lt_of_le ahead with rfl | ahead
      · exact .inl rfl
      · exact .inr ⟨ahead, isStop⟩
  | case3 b pos before c there later passes ih =>
    subst opened
    rw [ih (by omega) (bracketsAt_succ ordered there)]
    constructor
    · rintro ⟨ahead, isStop⟩
      exact ⟨by omega, isStop⟩
    · rintro ⟨ahead, isStop⟩
      rcases Nat.eq_or_lt_of_le ahead with rfl | ahead
      · simp [isStop.closed, isStop.after, isStop.starts] at passes
      · exact ⟨ahead, isStop⟩
  | case4 b pos outside =>
    refine ⟨fun mem => (List.not_mem_nil mem).elim, ?_⟩
    rintro ⟨ahead, isStop⟩
    have := isStop.before
    omega

/-- The stops come in the order of the text. -/
theorem pairwise_stopsFrom (ordered : start ≤ pos) :
    (stopsFrom l follow start stop (bracketsAt l start pos) pos).Pairwise (· < ·) := by
  generalize opened : bracketsAt l start pos = b
  fun_induction stopsFrom l follow start stop b pos with
  | case1 => exact .nil
  | case2 b pos before c there later stops ih =>
    subst opened
    have behind := bracketsAt_succ ordered there
    refine List.pairwise_cons.2 ⟨fun x mem => ?_, ih (by omega) behind⟩
    simp only [later, ← behind] at mem
    exact ((mem_stopsFrom (by omega)).1 mem).1
  | case3 b pos before c there later passes ih =>
    subst opened
    exact ih (by omega) (bracketsAt_succ ordered there)
  | case4 => exact .nil

theorem mem_withoutRepeats {seen xs : List Nat} :
    x ∈ withoutRepeats seen xs ↔ x ∈ xs ∧ x ∉ seen := by
  fun_induction withoutRepeats seen xs with
  | case1 => simp
  | case2 seen first xs known ih =>
    have known : first ∈ seen := by simpa using known
    rw [ih, List.mem_cons]
    constructor
    · rintro ⟨mem, new⟩
      exact ⟨.inr mem, new⟩
    · rintro ⟨rfl | mem, new⟩
      · exact absurd known new
      · exact ⟨mem, new⟩
  | case3 seen first xs unknown ih =>
    have unknown : first ∉ seen := by simpa using unknown
    rw [List.mem_cons, ih, List.mem_cons, List.mem_cons]
    constructor
    · rintro (rfl | ⟨mem, new⟩)
      · exact ⟨.inl rfl, unknown⟩
      · exact ⟨.inr mem, fun known => new (.inr known)⟩
    · rintro ⟨rfl | mem, new⟩
      · exact .inl rfl
      · by_cases same : x = first
        · exact .inl same
        · exact .inr ⟨mem, not_or.2 ⟨same, new⟩⟩

/-- Without repeats, what is in order grows from one element to the next. -/
theorem pairwise_withoutRepeats {seen xs : List Nat} (ordered : xs.Pairwise (· ≤ ·)) :
    (withoutRepeats seen xs).Pairwise (· < ·) := by
  fun_induction withoutRepeats seen xs with
  | case1 => exact .nil
  | case2 seen first xs _ ih => exact ih ordered.of_cons
  | case3 seen first xs _ ih =>
    refine List.pairwise_cons.2 ⟨fun x mem => ?_, ih ordered.of_cons⟩
    obtain ⟨mem, new⟩ := mem_withoutRepeats.1 mem
    have le := List.rel_of_pairwise_cons ordered mem
    have ne : x ≠ first := fun same => new (by simp [same])
    omega

theorem endBefore?_eq_some :
    endBefore? l start pos = some x ↔
      l.dropBlanks start pos = x ∧ start < x ∧ l.isBoundary x = true := by
  simp only [endBefore?]
  constructor
  · intro ends
    split at ends
    next holds =>
      cases ends
      simpa using holds
    next => cases ends
  · rintro ⟨rfl, after, boundary⟩
    rw [if_pos (by simp [after, boundary])]

/-- The places that a capture may reach to: the stops, and the end of the stretch. -/
def Reaches (l : Line) (follow : Follow) (start stop pos : Nat) : Prop :=
  IsStop l follow start stop pos ∨ (follow.canEnd || follow.isOpen) = true ∧ pos = stop

theorem Reaches.le (reaches : Reaches l follow start stop pos) : pos ≤ stop := by
  rcases reaches with isStop | ⟨-, rfl⟩
  · exact Nat.le_of_lt isStop.before
  · exact Nat.le_refl pos

/-- **The ends of a capture** are the places that it may reach to, without the blanks before them. -/
theorem mem_splitPoints :
    x ∈ splitPoints l follow start stop ↔
      (start < stop ∧ l.isBoundary start = true) ∧ (start < x ∧ l.isBoundary x = true) ∧
        ∃ pos, Reaches l follow start stop pos ∧ l.dropBlanks start pos = x := by
  unfold splitPoints
  split
  next nowhere =>
    refine ⟨fun mem => (List.not_mem_nil mem).elim, fun ⟨⟨before, boundary⟩, _⟩ => ?_⟩
    simp [boundary] at nowhere
    omega
  next somewhere =>
    have starts : start < stop ∧ l.isBoundary start = true := by simpa using somewhere
    simp only [mem_withoutRepeats, List.mem_filterMap, List.mem_append, endBefore?_eq_some,
      List.not_mem_nil, not_false_iff, and_true]
    have stops (pos : Nat) :
        pos ∈ stopsFrom l follow start stop {} start ↔ IsStop l follow start stop pos := by
      rw [← bracketsAt_self l start, mem_stopsFrom (Nat.le_refl start)]
      exact ⟨fun h => h.2, fun h => ⟨Nat.le_of_lt h.after, h⟩⟩
    have last (pos : Nat) :
        pos ∈ (if follow.canEnd || follow.isOpen then [stop] else []) ↔
          (follow.canEnd || follow.isOpen) = true ∧ pos = stop := by
      split
      next ends => simp [ends]
      next never => simp [never]
    simp only [stops, last]
    constructor
    · rintro ⟨pos, reaches, drops, bounds⟩
      exact ⟨starts, bounds, pos, reaches, drops⟩
    · rintro ⟨-, bounds, pos, reaches, drops⟩
      exact ⟨pos, reaches, drops, bounds⟩

/-- A capture holds something, and ends within the stretch. -/
theorem bounds_of_mem_splitPoints (h : x ∈ splitPoints l follow start stop) : start < x ∧ x ≤ stop := by
  obtain ⟨-, ⟨after, -⟩, pos, reaches, rfl⟩ := mem_splitPoints.1 h
  exact ⟨after, Nat.le_trans (l.dropBlanks_le start pos) reaches.le⟩

/-- The ends of a capture come in the order of the text. -/
theorem pairwise_splitPoints : (splitPoints l follow start stop).Pairwise (· < ·) := by
  unfold splitPoints
  split
  next => exact .nil
  next =>
    refine pairwise_withoutRepeats ?_
    have sorted : (stopsFrom l follow start stop {} start).Pairwise (· < ·) := by
      rw [← bracketsAt_self l start]
      exact pairwise_stopsFrom (Nat.le_refl start)
    have ordered : (stopsFrom l follow start stop {} start ++
        if follow.canEnd || follow.isOpen then [stop] else []).Pairwise (· ≤ ·) := by
      refine List.pairwise_append.2 ⟨sorted.imp Nat.le_of_lt, by split <;> simp, fun x mem y last => ?_⟩
      rw [← bracketsAt_self l start, mem_stopsFrom (Nat.le_refl start)] at mem
      split at last
      · obtain rfl := List.mem_singleton.1 last
        exact Nat.le_of_lt mem.2.before
      · cases last
    refine List.Pairwise.filterMap _ (fun i j le x endsI y endsJ => ?_) ordered
    obtain ⟨rfl, -⟩ := endBefore?_eq_some.1 endsI
    obtain ⟨rfl, -⟩ := endBefore?_eq_some.1 endsJ
    exact l.dropBlanks_mono start le

end Phrasebook.Match
