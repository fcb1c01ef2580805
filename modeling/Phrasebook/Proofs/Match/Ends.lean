import Mathlib.Data.List.Induction
import Phrasebook.Proofs.Match.SplitPoints

/-!
# The ends of a capture, by the text that they close

The scan for the ends of a capture keeps a switch for quotes and counters for brackets that never go below zero. Said
of the text alone: nothing is open behind it if it holds an even number of quotes, and if outside of them no ending of
it opens more brackets of a kind than it closes (`isOpen_eq_false_iff`). So the ends of a capture are given by the
text: `splitPoints_eligible`.
-/

namespace Phrasebook.Match
open Text Pattern

/-- What of a text stands outside of quotes, if quotes are open in front of it or not. -/
def unquoted (quoted : Bool) : List Char → List Char
  | [] => []
  | c :: text =>
    if c = '"' then unquoted (!quoted) text else if quoted then unquoted quoted text else c :: unquoted quoted text

/-- Nothing that a text opens is open behind it. Brackets count outside of quotes, and one that closes nothing does
not count: what is open was opened in some ending of the text that does not close as much. -/
structure Closed (text : List Char) : Prop where
  quotes : text.count '"' % 2 = 0
  parens : ∀ ending, ending <:+ unquoted false text → ending.count '(' ≤ ending.count ')'
  braces : ∀ ending, ending <:+ unquoted false text → ending.count '{' ≤ ending.count '}'

/-- So many brackets are open behind a text: no ending of it leaves more of them open, and one leaves as many. -/
structure LeftOpen (opener closer : Char) (text : List Char) (depth : Nat) : Prop where
  most : ∀ ending, ending <:+ text → ending.count opener ≤ ending.count closer + depth
  some_ : ∃ ending, ending <:+ text ∧ ending.count opener = ending.count closer + depth

/-- How deep in brackets of one kind a text is after one more character. -/
def deeper (opener closer : Char) (depth : Nat) (c : Char) : Nat :=
  if c = opener then depth + 1 else if c = closer then depth - 1 else depth

namespace LeftOpen

variable {opener closer : Char} {text : List Char} {depth : Nat}

theorem nil : LeftOpen opener closer [] 0 where
  most ending suffix := by
    rw [List.suffix_nil.1 suffix]
    exact Nat.le_refl 0
  some_ := ⟨[], List.suffix_refl [], rfl⟩

theorem eq_zero_iff (h : LeftOpen opener closer text depth) :
    depth = 0 ↔ ∀ ending, ending <:+ text → ending.count opener ≤ ending.count closer := by
  constructor
  · rintro rfl
    exact h.most
  · intro closes
    obtain ⟨ending, suffix, left⟩ := h.some_
    have := closes ending suffix
    omega

/-- The endings of a longer text are those of the text before, each with the last character, and the empty one. -/
theorem snoc {c : Char} {depth' : Nat} (h : LeftOpen opener closer text depth)
    (most : ∀ ending, ending.count opener ≤ ending.count closer + depth →
      (ending ++ [c]).count opener ≤ (ending ++ [c]).count closer + depth')
    (some_ : depth' = 0 ∨ ∀ ending, ending.count opener = ending.count closer + depth →
      (ending ++ [c]).count opener = (ending ++ [c]).count closer + depth') :
    LeftOpen opener closer (text ++ [c]) depth' where
  most ending suffix := by
    rcases List.suffix_concat_iff.1 suffix with rfl | ⟨before, rfl, earlier⟩
    · exact Nat.zero_le _
    · exact most before (h.most before earlier)
  some_ := by
    rcases some_ with rfl | some_
    · exact ⟨[], List.nil_suffix, rfl⟩
    · obtain ⟨ending, suffix, left⟩ := h.some_
      exact ⟨ending ++ [c], List.suffix_concat_iff.2 (.inr ⟨ending, rfl, suffix⟩), some_ ending left⟩

/-- A bracket that closes nothing does not count: then the empty ending leaves the most open. -/
theorem step (h : LeftOpen opener closer text depth) (apart : opener ≠ closer) (c : Char) :
    LeftOpen opener closer (text ++ [c]) (deeper opener closer depth c) := by
  have counts (ending : List Char) (d : Char) : (ending ++ [c]).count d = ending.count d + if c = d then 1 else 0 := by
    simp [List.count_append, List.count_singleton]
  unfold deeper
  by_cases opens : c = opener
  · have other : c ≠ closer := opens ▸ apart
    refine h.snoc (fun ending most => ?_) (.inr fun ending left => ?_)
    · rw [counts, counts, if_pos opens, if_pos opens, if_neg other]
      omega
    · rw [counts, counts, if_pos opens, if_pos opens, if_neg other]
      omega
  by_cases closes : c = closer
  · refine h.snoc (fun ending most => ?_) ?_
    · rw [counts, counts, if_neg opens, if_neg opens, if_pos closes, if_pos closes]
      omega
    · rw [if_neg opens, if_pos closes]
      cases depth with
      | zero => exact .inl rfl
      | succ depth =>
        refine .inr fun ending left => ?_
        rw [counts, counts, if_neg opens, if_pos closes]
        omega
  · rw [if_neg opens, if_neg closes]
    refine h.snoc (fun ending most => ?_) (.inr fun ending left => ?_)
    · rwa [counts, counts, if_neg opens, if_neg closes]
    · rwa [counts, counts, if_neg opens, if_neg closes]

/-- Counting from the front, and never below zero, comes to what the endings leave open. -/
theorem foldl (apart : opener ≠ closer) (text : List Char) :
    LeftOpen opener closer text (text.foldl (deeper opener closer) 0) := by
  induction text using List.reverseRecOn with
  | nil => exact nil
  | append_singleton text c ih =>
    rw [List.foldl_append]
    exact ih.step apart c

end LeftOpen

namespace Brackets

variable {c : Char} {text : List Char}

theorem next_quote (b : Brackets) : b.next '"' = { b with quoted := !b.quoted } := rfl

theorem next_quoted {b : Brackets} (quoted : b.quoted = true) (other : c ≠ '"') : b.next c = b := by
  simp [next, other, quoted]

theorem next_unquoted {b : Brackets} (unquoted : b.quoted = false) (other : c ≠ '"') :
    b.next c = { b with parens := deeper '(' ')' b.parens c, braces := deeper '{' '}' b.braces c } := by
  obtain ⟨quoted, parens, braces⟩ := b
  subst unquoted
  simp only [next, beq_iff_eq, other, if_false, Bool.false_eq_true, deeper]
  split
  all_goals simp_all

/-- The quotes of a text decide whether it ends within quotes. -/
theorem quoted_foldl (b : Brackets) (text : List Char) :
    (text.foldl next b).quoted = (b.quoted ^^ text.count '"' % 2 == 1) := by
  induction text generalizing b with
  | nil => simp
  | cons c text ih =>
    rw [List.foldl_cons, ih]
    by_cases quote : c = '"'
    · subst quote
      rw [next_quote, List.count_cons_self]
      rcases Nat.mod_two_eq_zero_or_one (text.count '"') with even | odd
      · simp [Nat.add_mod, even]
      · simp [Nat.add_mod, odd]
    · have same : (b.next c).quoted = b.quoted := by
        cases quoted : b.quoted with
        | false => rw [next_unquoted quoted quote, quoted]
        | true => rw [next_quoted quoted quote, quoted]
      rw [same, List.count_cons_of_ne quote]

/-- Only what stands outside of quotes opens and closes brackets. -/
theorem depths_foldl (b : Brackets) (text : List Char) :
    (text.foldl next b).parens = (unquoted b.quoted text).foldl (deeper '(' ')') b.parens ∧
      (text.foldl next b).braces = (unquoted b.quoted text).foldl (deeper '{' '}') b.braces := by
  induction text generalizing b with
  | nil => exact ⟨rfl, rfl⟩
  | cons c text ih =>
    rw [List.foldl_cons, (ih _).1, (ih _).2, unquoted]
    by_cases quote : c = '"'
    · subst quote
      exact ⟨rfl, rfl⟩
    rw [if_neg quote]
    cases quoted : b.quoted with
    | true =>
      rw [next_quoted quoted quote, quoted]
      exact ⟨rfl, rfl⟩
    | false =>
      rw [next_unquoted quoted quote, quoted]
      exact ⟨rfl, rfl⟩

/-- **Nothing is open** behind a text that closes what it opens. -/
theorem isOpen_eq_false_iff (text : List Char) : (text.foldl next {}).isOpen = false ↔ Closed text := by
  have quoted := quoted_foldl {} text
  have parens := (@LeftOpen.foldl '(' ')' (by decide) (unquoted false text)).eq_zero_iff
  have braces := (@LeftOpen.foldl '{' '}' (by decide) (unquoted false text)).eq_zero_iff
  rw [← (depths_foldl {} text).1] at parens
  rw [← (depths_foldl {} text).2] at braces
  simp only [isOpen, Bool.or_eq_false_iff, bne_eq_false_iff_eq, parens, braces, quoted, Bool.false_bne,
    beq_eq_false_iff_ne]
  constructor
  · rintro ⟨⟨even, parens⟩, braces⟩
    exact ⟨by omega, parens, braces⟩
  · rintro ⟨even, parens, braces⟩
    exact ⟨⟨by omega, parens⟩, braces⟩

end Brackets

/-- The end of a stretch without the blanks at its end. -/
structure TrimmedEnd (l : Line) (start stop pos : Nat) : Prop where
  after : start ≤ pos
  within : pos ≤ stop
  blanks : ∀ k, pos ≤ k → k < stop → l.BlankAt k
  solid : start < pos → ¬ l.BlankAt (pos - 1)

variable {l : Line} {follow : Follow} {start stop pos x : Nat}

theorem dropBlanks_eq_iff (ordered : start ≤ stop) : l.dropBlanks start stop = x ↔ TrimmedEnd l start stop x := by
  constructor
  · rintro rfl
    exact ⟨l.le_dropBlanks ordered, l.dropBlanks_le start stop, fun _ => Line.blankAt_of_dropBlanks_le,
      Line.not_blankAt_dropBlanks⟩
  · rintro ⟨after, within, blanks, solid⟩
    rcases Nat.eq_or_lt_of_le after with rfl | held
    · -- only blanks stand there, so dropping cannot stop behind one of them
      by_contra elsewhere
      have from_ := l.le_dropBlanks ordered
      have bound := l.dropBlanks_le start stop
      have held : start < l.dropBlanks start stop := by omega
      exact Line.not_blankAt_dropBlanks held (blanks _ (by omega) (by omega))
    · exact Line.dropBlanks_eq held within blanks (solid held)

/-- What follows a capture may start at a place of the line behind its start. -/
structure MayStop (l : Line) (follow : Follow) (start pos : Nat) : Prop where
  after : start < pos
  before : pos < l.size
  closed : Closed (l.slice start pos)
  starts : follow.isOpen = true ∧ l.isBoundary pos = true ∨
    ¬ l.BlankAt pos ∧ ∃ literal ∈ follow.literals, (l.matchLiteral pos literal).isSome = true ∧
      (literal.head?.any isWordChar = true → l.isBoundary pos = true)

theorem literalStarts_iff {literal : List Char} :
    literalStarts l pos literal = true ↔ ¬ l.BlankAt pos ∧ (l.matchLiteral pos literal).isSome = true ∧
      (literal.head?.any isWordChar = true → l.isBoundary pos = true) := by
  simp only [literalStarts, Line.matchLiteral, Bool.and_eq_true, Bool.or_eq_true, Bool.not_eq_true', beq_iff_eq,
    ← Bool.not_eq_true, ← imp_iff_not_or]
  constructor
  · rintro ⟨⟨word, solid⟩, matches_⟩
    rw [solid]
    exact ⟨solid ▸ l.not_blankAt_skipBlanks pos, matches_, word⟩
  · rintro ⟨solid, matches_, word⟩
    have solid := Line.skipBlanks_of_not_blankAt solid
    rw [solid] at matches_
    exact ⟨⟨word, solid⟩, matches_⟩

theorem isStop_iff : IsStop l follow start l.size pos ↔ MayStop l follow start pos := by
  have starts : stopsBefore l follow pos = true ↔ follow.isOpen = true ∧ l.isBoundary pos = true ∨
      ¬ l.BlankAt pos ∧ ∃ literal ∈ follow.literals, (l.matchLiteral pos literal).isSome = true ∧
        (literal.head?.any isWordChar = true → l.isBoundary pos = true) := by
    simp only [stopsBefore, Bool.or_eq_true, Bool.and_eq_true, List.any_eq_true, literalStarts_iff]
    refine or_congr_right ⟨?_, ?_⟩
    · rintro ⟨literal, mem, solid, fits⟩
      exact ⟨solid, literal, mem, fits⟩
    · rintro ⟨solid, literal, mem, fits⟩
      exact ⟨literal, mem, solid, fits⟩
  constructor
  · intro h
    exact ⟨h.after, h.before, (Brackets.isOpen_eq_false_iff _).1 h.closed, starts.1 h.starts⟩
  · intro h
    exact ⟨h.after, h.before, h.before, (Brackets.isOpen_eq_false_iff _).2 h.closed, starts.2 h.starts⟩

/-- A place is an end of a capture: the end of the line, where anything or nothing may follow, or a place where what
follows may start, each without the blanks before it. -/
def Eligible (l : Line) (follow : Follow) (start x : Nat) : Prop :=
  (follow.isOpen = true ∨ follow.canEnd = true) ∧ TrimmedEnd l start l.size x ∨
    ∃ pos, MayStop l follow start pos ∧ TrimmedEnd l start pos x

theorem eligible_iff (ordered : start ≤ l.size) :
    Eligible l follow start x ↔ ∃ pos, Reaches l follow start l.size pos ∧ l.dropBlanks start pos = x := by
  simp only [Reaches, isStop_iff, Bool.or_eq_true]
  constructor
  · rintro (⟨ends, trimmed⟩ | ⟨pos, stops, trimmed⟩)
    · exact ⟨l.size, .inr ⟨ends.symm, rfl⟩, (dropBlanks_eq_iff ordered).2 trimmed⟩
    · exact ⟨pos, .inl stops, (dropBlanks_eq_iff (Nat.le_of_lt stops.after)).2 trimmed⟩
  · rintro ⟨pos, stops | ⟨ends, rfl⟩, drops⟩
    · exact .inr ⟨pos, stops, (dropBlanks_eq_iff (Nat.le_of_lt stops.after)).1 drops⟩
    · exact .inl ⟨ends.symm, (dropBlanks_eq_iff ordered).1 drops⟩

/-- **The ends of a capture are the eligible places**, the nearest first. None is left out but those that cut a word,
and a capture within a word has none. -/
theorem splitPoints_eligible (l : Line) (follow : Follow) (start : Nat) :
    let ends := splitPoints l follow start l.size
    (ends.Pairwise (· < ·) ∧ (ends.map l.byteOffset).Pairwise (· < ·)) ∧
      (start = l.size ∨ l.isBoundary start = false → ends = []) ∧
      (∀ x ∈ ends, start < x ∧ x ≤ l.size ∧ l.isBoundary x = true ∧ ¬ l.BlankAt (x - 1)) ∧
      (start < l.size → l.isBoundary start = true →
        ∀ x, start < x → l.isBoundary x = true → (x ∈ ends ↔ Eligible l follow start x)) := by
  refine ⟨⟨pairwise_splitPoints, ?_⟩, fun nowhere => ?_, fun x mem => ?_, fun before boundary x after cuts => ?_⟩
  · rw [List.pairwise_map]
    exact pairwise_splitPoints.imp_of_mem fun _ mem less => l.byteOffset_lt less (bounds_of_mem_splitPoints mem).2
  · rw [splitPoints, if_pos]
    rcases nowhere with rfl | inside
    · simp
    · simp [inside]
  · have ⟨after, within⟩ := bounds_of_mem_splitPoints mem
    obtain ⟨-, ⟨-, cuts⟩, pos, -, rfl⟩ := mem_splitPoints.1 mem
    exact ⟨after, within, cuts, Line.not_blankAt_dropBlanks after⟩
  · rw [mem_splitPoints, eligible_iff (Nat.le_of_lt before)]
    exact ⟨fun mem => mem.2.2, fun reaches => ⟨⟨before, boundary⟩, ⟨after, cuts⟩, reaches⟩⟩

/-- What stands within quotes or braces ends no capture. -/
theorem splitPoints_eligible_enclosed :
    let l : Line := .ofString "\"a to b\" to {x to y} to c"
    let follow : Follow := { literals := [['t', 'o']] }
    0 < l.size ∧ l.isBoundary 0 = true ∧
      ∀ x, 0 < x → l.isBoundary x = true → (x ∈ [8, 20] ↔ Eligible l follow 0 x) := by
  intro l follow
  have some_ : 0 < l.size := by decide +kernel
  have starts : l.isBoundary 0 = true := by decide +kernel
  have ends : splitPoints l follow 0 l.size = [8, 20] := by decide +kernel
  have eligible := (splitPoints_eligible l follow 0).2.2.2 some_ starts
  rw [ends] at eligible
  exact ⟨some_, starts, eligible⟩

end Phrasebook.Match
