import Phrasebook.Literal.Duration
import Phrasebook.Proofs.Literal.Integer

/-!
# Lengths of time in whole units

A length of time is rendered as counts of units, the largest first. The counts add up to exactly this length, and
none of them makes up one of a larger unit. The text can be taken apart again, since digits end at a blank and names at
a blank, at a comma or at the end: two lengths with the same text are the same (`Shows.unique`).
-/

namespace Phrasebook.Literal
open Text

/-- The milliseconds that counts of units come to. -/
def total : List (Nat × Unit) → Nat
  | [] => 0
  | (count, unit) :: counts => count * unit.millis + total counts

/-- Counts of units are those of a length of time: each unit is smaller than the one before, every count is positive
and makes up less than one of any larger unit, and together they are as long. -/
structure Counts (millis : Nat) (counts : List (Nat × Unit)) : Prop where
  rendered : ∀ c ∈ counts, c.2 ∈ renderedUnits
  decreasing : counts.Pairwise fun a b => b.2.millis < a.2.millis
  positive : ∀ c ∈ counts, 0 < c.1
  below : ∀ c ∈ counts, ∀ larger ∈ renderedUnits, c.2.millis < larger.millis → c.1 < larger.millis / c.2.millis
  total : total counts = millis

/-- A text is a count with the name of its unit. The name is singular for one of the unit, and plural otherwise. -/
inductive IsPiece : Nat × Unit → String → Prop where
  | one {unit : Unit} : IsPiece (1, unit) ("1 " ++ unit.singular)
  | several {count : Nat} {unit : Unit} (other : count ≠ 1) : IsPiece (count, unit) (count.repr ++ " " ++ unit.plural)

/-- A text lists pieces, with commas between them and `and` before the last. -/
inductive Lists : List String → String → Prop where
  | single {piece : String} : Lists [piece] piece
  | several {front : List String} {last : String} (some_ : front ≠ []) :
    Lists (front ++ [last]) (", ".intercalate front ++ " and " ++ last)

/-- A text shows a length of time. -/
def Shows (millis : Nat) (text : String) : Prop :=
  millis = 0 ∧ text = "0 seconds" ∨
    ∃ counts pieces, Counts millis counts ∧ List.Forall₂ IsPiece counts pieces ∧ Lists pieces text

section Counting

variable {units : List Unit} {unit : Unit} {millis : Nat} {c : Nat × Unit}

theorem total_append (counts counts' : List (Nat × Unit)) :
    total (counts ++ counts') = total counts + total counts' := by
  induction counts with
  | nil => exact (Nat.zero_add _).symm
  | cons c counts ih => rw [List.cons_append, total, total, ih, Nat.add_assoc]

theorem unitCounts_cons (unit : Unit) (units : List Unit) (millis : Nat) :
    unitCounts (unit :: units) millis =
      (if millis / unit.millis = 0 then [] else [(millis / unit.millis, unit)]) ++
        unitCounts units (millis % unit.millis) := by
  rw [unitCounts]
  split <;> rfl

/-- The units of the counts come in the order in which they are listed. -/
theorem units_sublist (units : List Unit) (millis : Nat) : ((unitCounts units millis).map Prod.snd).Sublist units := by
  induction units generalizing millis with
  | nil => exact .slnil
  | cons unit units ih =>
    have rest := ih (millis % unit.millis)
    rw [unitCounts]
    split
    · exact rest.cons unit
    · exact rest.cons_cons unit

theorem count_pos (mem : c ∈ unitCounts units millis) : 0 < c.1 := by
  induction units generalizing millis with
  | nil => cases mem
  | cons unit units ih =>
    rw [unitCounts_cons, List.mem_append] at mem
    rcases mem with mem | mem
    · split at mem
      · cases mem
      next some_ =>
        obtain rfl := List.mem_singleton.1 mem
        exact Nat.pos_of_ne_zero some_
    · exact ih mem

/-- No count is longer than the time it is taken from. -/
theorem count_le (mem : c ∈ unitCounts units millis) : c.1 * c.2.millis ≤ millis := by
  induction units generalizing millis with
  | nil => cases mem
  | cons unit units ih =>
    rw [unitCounts_cons, List.mem_append] at mem
    rcases mem with mem | mem
    · split at mem
      · cases mem
      · obtain rfl := List.mem_singleton.1 mem
        exact Nat.div_mul_le_self millis unit.millis
    · exact Nat.le_trans (ih mem) (Nat.mod_le millis unit.millis)

/-- What is left behind a unit is shorter than it. -/
theorem count_lt (positive : ∀ unit ∈ units, 0 < unit.millis)
    (sorted : units.Pairwise fun a b => b.millis < a.millis) (mem : c ∈ unitCounts units millis) {larger : Unit}
    (among : larger ∈ units) (shorter : c.2.millis < larger.millis) : c.1 * c.2.millis < larger.millis := by
  induction units generalizing millis with
  | nil => cases among
  | cons unit units ih =>
    obtain ⟨first, sorted⟩ := List.pairwise_cons.1 sorted
    obtain ⟨there, positive⟩ := List.forall_mem_cons.1 positive
    rw [unitCounts_cons, List.mem_append] at mem
    rcases mem with mem | mem
    · -- No unit is larger than the first.
      split at mem
      · cases mem
      obtain rfl := List.mem_singleton.1 mem
      rcases List.mem_cons.1 among with rfl | among
      · exact absurd shorter (Nat.lt_irrefl _)
      · exact absurd (first larger among) (Nat.lt_asymm shorter)
    · rcases List.mem_cons.1 among with rfl | among
      · exact Nat.lt_of_le_of_lt (count_le mem) (Nat.mod_lt millis there)
      · exact ih positive sorted mem among

/-- The counts add up to the whole length, if the last unit is one that divides everything. -/
theorem total_unitCounts (last : ∀ unit ∈ units.getLast?, unit.millis = 1) (some_ : units ≠ []) :
    total (unitCounts units millis) = millis := by
  induction units generalizing millis with
  | nil => exact absurd rfl some_
  | cons unit units ih =>
    have here : total (if millis / unit.millis = 0 then [] else [(millis / unit.millis, unit)]) =
        millis / unit.millis * unit.millis := by
      split
      next none => rw [none, Nat.zero_mul]; rfl
      next => rfl
    have rest : total (unitCounts units (millis % unit.millis)) = millis % unit.millis := by
      cases units with
      | nil =>
        rw [last unit rfl, Nat.mod_one]
        rfl
      | cons next units => exact ih last (List.cons_ne_nil next units)
    calc total (unitCounts (unit :: units) millis)
      _ = millis / unit.millis * unit.millis + millis % unit.millis := by
        rw [unitCounts_cons, total_append, here, rest]
      _ = millis := Nat.div_add_mod' millis unit.millis

end Counting

theorem renderedUnits_sorted : renderedUnits.Pairwise fun a b => b.millis < a.millis := by
  decide

theorem renderedUnits_pos : ∀ unit ∈ renderedUnits, 0 < unit.millis := by
  decide

theorem renderedUnits_dvd : ∀ unit ∈ renderedUnits, ∀ larger ∈ renderedUnits, unit.millis < larger.millis →
    unit.millis ∣ larger.millis := by
  decide

/-- **The counts of a length of time** in the units that rendering uses. -/
theorem counts_unitCounts (millis : Nat) : Counts millis (unitCounts renderedUnits millis) where
  rendered c mem := (units_sublist renderedUnits millis).subset (List.mem_map_of_mem mem)
  decreasing := List.pairwise_map.1 (renderedUnits_sorted.sublist (units_sublist renderedUnits millis))
  positive _ mem := count_pos mem
  below c mem larger among shorter := by
    have rendered : c.2 ∈ renderedUnits := (units_sublist renderedUnits millis).subset (List.mem_map_of_mem mem)
    have positive := Nat.ne_of_gt (renderedUnits_pos c.2 rendered)
    rw [Nat.lt_div_iff_mul_lt_of_dvd positive (renderedUnits_dvd c.2 rendered larger among shorter)]
    exact count_lt renderedUnits_pos renderedUnits_sorted mem among shorter
  total := total_unitCounts (by decide) (List.cons_ne_nil _ _)

theorem isPiece_renderCount (c : Nat × Unit) : IsPiece c (renderCount c.1 c.2) := by
  obtain ⟨count, unit⟩ := c
  by_cases single : count = 1
  · subst single
    have same : renderCount 1 unit = "1 " ++ unit.singular := by
      rw [renderCount, if_pos rfl]
      rfl
    exact same ▸ .one
  · have same : renderCount count unit = count.repr ++ " " ++ unit.plural := by
      rw [renderCount, if_neg single]
      rfl
    exact same ▸ .several single

theorem lists_joinPieces {pieces : List String} (some_ : pieces ≠ []) : Lists pieces (joinPieces pieces) := by
  fun_induction joinPieces pieces with
  | case1 => exact absurd rfl some_
  | case2 last => exact .single
  | case3 piece last => exact .several (List.cons_ne_nil piece [])
  | case4 piece pieces several one ih =>
    generalize joinPieces pieces = text at ih
    cases ih several with
    | single => exact (one text rfl).elim
    | @several front last full =>
      have longer : piece ++ ", " ++ (", ".intercalate front ++ " and " ++ last) =
          ", ".intercalate (piece :: front) ++ " and " ++ last := by
        rw [String.intercalate_cons_of_ne_nil full]
        simp only [String.append_assoc]
      rw [longer]
      exact .several (List.cons_ne_nil piece front)

section Reading

/-- A count with the name of its unit. -/
def spelled (c : Nat × Unit) : List Char :=
  Decimal.digitsOf c.1 ++ ' ' :: (if c.1 = 1 then c.2.singular else c.2.plural).toList

/-- Counts with the commas and the `and` that stand in front of each of them. -/
def behind : List (Nat × Unit) → List Char
  | [] => []
  | [last] => ' ' :: 'a' :: 'n' :: 'd' :: ' ' :: spelled last
  | c :: counts => ',' :: ' ' :: (spelled c ++ behind counts)

variable {c c' : Nat × Unit} {counts counts' : List (Nat × Unit)} {piece text : String} {pieces : List String}

theorem IsPiece.toList (h : IsPiece c piece) : piece.toList = spelled c := by
  cases h with
  | one =>
    have digit : "1 ".toList = Decimal.digitsOf 1 ++ [' '] := by decide
    rw [String.toList_append, spelled, if_pos rfl, digit, List.append_assoc]
    rfl
  | several other =>
    rw [String.toList_append, String.toList_append, Nat.toList_repr, spelled, if_neg other, List.append_assoc]
    rfl

/-- What lists the pieces of some counts is the first of them and the others behind it. -/
theorem Lists.toList (h : Lists pieces text) (are : List.Forall₂ IsPiece (c :: counts) pieces) :
    text.toList = spelled c ++ behind counts := by
  cases h with
  | single =>
    cases are with
    | cons first rest =>
      cases rest
      rw [first.toList, behind, List.append_nil]
  | @several front last some_ =>
    induction front generalizing c counts with
    | nil => exact absurd rfl some_
    | cons piece front ih =>
      cases are with
      | cons first rest =>
      cases front with
      | nil =>
        cases rest with
        | cons second rest =>
        cases rest
        rw [String.intercalate_singleton, String.toList_append, String.toList_append, first.toList, second.toList,
          List.append_assoc]
        rfl
      | cons next front =>
        cases rest with
        | @cons d _ more _ second rest =>
        have later := ih (List.cons_ne_nil next front) (.cons second rest)
        rw [String.intercalate_cons_of_ne_nil (List.cons_ne_nil next front), String.append_assoc, String.append_assoc,
          String.toList_append, String.toList_append, ← String.append_assoc, later, first.toList, List.append_assoc]
        obtain ⟨e, further, rfl⟩ : ∃ e further, more = e :: further := by
          refine List.exists_cons_of_ne_nil fun none => ?_
          have same := rest.length_eq
          simp [none] at same
        rfl

/-- Where characters of some kind stand before one of another kind or before the end, the text tells how many they
are. -/
theorem eq_of_append_eq {p : Char → Bool} {a a' b b' : List Char} (all : ∀ d ∈ a, p d = true)
    (all' : ∀ d ∈ a', p d = true) (ends : ∀ d ∈ b.head?, p d = false) (ends' : ∀ d ∈ b'.head?, p d = false)
    (same : a ++ b = a' ++ b') : a = a' ∧ b = b' := by
  have first {a b : List Char} (all : ∀ d ∈ a, p d = true) (ends : ∀ d ∈ b.head?, p d = false) :
      (a ++ b).takeWhile p = a := by
    rw [List.takeWhile_append_of_pos all]
    cases b with
    | nil => exact List.append_nil a
    | cons d b => rw [List.takeWhile_cons_of_neg (Bool.eq_false_iff.1 (ends d rfl)), List.append_nil]
  have heads : a = a' := by rw [← first all ends, same, first all' ends']
  exact ⟨heads, List.append_cancel_left (heads ▸ same)⟩

/-- Names are in small letters. -/
theorem isLower_name {unit : Unit} (rendered : unit ∈ renderedUnits) {count : Nat} :
    ∀ d ∈ (if count = 1 then unit.singular else unit.plural).toList, d.isLower = true := by
  have names : ∀ unit ∈ renderedUnits, (unit.singular.toList ++ unit.plural.toList).all Char.isLower = true := by decide
  intro d mem
  refine List.all_eq_true.1 (names unit rendered) d (List.mem_append.2 ?_)
  split at mem
  · exact .inl mem
  · exact .inr mem

/-- Units with the same name are the same. -/
theorem unit_inj {unit unit' : Unit} (rendered : unit ∈ renderedUnits) (rendered' : unit' ∈ renderedUnits)
    {count : Nat} (same : (if count = 1 then unit.singular else unit.plural) =
      if count = 1 then unit'.singular else unit'.plural) : unit = unit' := by
  have names : ∀ unit ∈ renderedUnits, ∀ unit' ∈ renderedUnits,
      (unit.singular = unit'.singular → unit = unit') ∧ (unit.plural = unit'.plural → unit = unit') := by decide
  split at same
  · exact (names unit rendered unit' rendered').1 same
  · exact (names unit rendered unit' rendered').2 same

/-- What stands behind a count starts with no letter. -/
theorem not_isLower_behind (counts : List (Nat × Unit)) : ∀ d ∈ (behind counts).head?, d.isLower = false := by
  unfold behind
  split
  · exact nofun
  · rintro _ ⟨⟩
    decide
  · rintro _ ⟨⟩
    decide

/-- The first count can be read off a text, and so can what stands behind it. -/
theorem spelled_inj (rendered : c.2 ∈ renderedUnits) (rendered' : c'.2 ∈ renderedUnits)
    (same : spelled c ++ behind counts = spelled c' ++ behind counts') : c = c' ∧ behind counts = behind counts' := by
  obtain ⟨count, unit⟩ := c
  obtain ⟨count', unit'⟩ := c'
  rw [spelled, spelled, List.append_assoc, List.append_assoc] at same
  obtain ⟨digits, rest⟩ := eq_of_append_eq (fun d mem => Decimal.isDigit_of_mem_digitsOf mem)
    (fun d mem => Decimal.isDigit_of_mem_digitsOf mem) (by rintro _ ⟨⟩; decide) (by rintro _ ⟨⟩; decide) same
  obtain rfl : count = count' := by
    rw [← Decimal.digitValue_digitsOf count, digits, Decimal.digitValue_digitsOf]
  obtain ⟨name, further⟩ := eq_of_append_eq (isLower_name rendered) (isLower_name rendered')
    (not_isLower_behind counts) (not_isLower_behind counts') (List.cons.inj rest).2
  obtain rfl : unit = unit' := unit_inj rendered rendered' (String.toList_inj.1 name)
  exact ⟨rfl, further⟩

theorem behind_inj (rendered : ∀ c ∈ counts, c.2 ∈ renderedUnits) (rendered' : ∀ c ∈ counts', c.2 ∈ renderedUnits)
    (same : behind counts = behind counts') : counts = counts' := by
  induction counts generalizing counts' with
  | nil =>
    cases counts' with
    | nil => rfl
    | cons c' counts' => cases counts' <;> cases same
  | cons c counts ih =>
    obtain ⟨here, others⟩ := List.forall_mem_cons.1 rendered
    cases counts' with
    | nil => cases counts <;> cases same
    | cons c' counts' =>
      obtain ⟨here', others'⟩ := List.forall_mem_cons.1 rendered'
      cases counts with
      | nil =>
        cases counts' with
        | nil =>
          have same : spelled c ++ behind [] = spelled c' ++ behind [] := by
            simpa only [behind, List.cons.injEq, true_and, List.append_nil] using same
          rw [(spelled_inj here here' same).1]
        | cons => cases same
      | cons d counts =>
        cases counts' with
        | nil => cases same
        | cons d' counts' =>
          have same : spelled c ++ behind (d :: counts) = spelled c' ++ behind (d' :: counts') := by
            simpa only [behind, List.cons.injEq, true_and] using same
          obtain ⟨rfl, rest⟩ := spelled_inj here here' same
          rw [ih others others' rest]

theorem Shows.exists_spelled {millis : Nat} (h : Shows millis text) :
    ∃ c counts, (∀ d ∈ c :: counts, d.2 ∈ renderedUnits) ∧ total (c :: counts) = millis ∧
      text.toList = spelled c ++ behind counts := by
  rcases h with ⟨rfl, rfl⟩ | ⟨counts, pieces, are, each, lists⟩
  · exact ⟨(0, ⟨"second", "seconds", 1000⟩), [], by decide, rfl, by decide⟩
  · have full : pieces ≠ [] := by
      cases lists <;> simp
    obtain ⟨piece, pieces, rfl⟩ := List.exists_cons_of_ne_nil full
    cases each with
    | @cons c _ counts _ first rest => exact ⟨c, counts, are.rendered, are.total, lists.toList (.cons first rest)⟩

/-- **A text shows one length of time only.** -/
theorem Shows.unique {millis millis' : Nat} (h : Shows millis text) (h' : Shows millis' text) : millis = millis' := by
  obtain ⟨c, counts, rendered, rfl, written⟩ := h.exists_spelled
  obtain ⟨c', counts', rendered', rfl, written'⟩ := h'.exists_spelled
  obtain ⟨here, others⟩ := List.forall_mem_cons.1 rendered
  obtain ⟨here', others'⟩ := List.forall_mem_cons.1 rendered'
  obtain ⟨rfl, rest⟩ := spelled_inj here here' (written.symm.trans written')
  rw [behind_inj others others' rest]

end Reading

/-- A length of time is shown by its rendering. -/
theorem shows_renderDuration {millis : Nat} (small : millis < 2 ^ 64) : Shows millis (renderDuration millis) := by
  have whole : min millis (UInt64.size - 1) = millis := Nat.min_eq_left (Nat.le_sub_one_of_lt small)
  have counts := counts_unitCounts millis
  rw [renderDuration, whole]
  cases found : unitCounts renderedUnits millis with
  | nil =>
    rw [found] at counts
    exact .inl ⟨counts.total.symm, rfl⟩
  | cons c rest =>
    rw [← found]
    refine .inr ⟨_, _, counts, ?_, lists_joinPieces ?_⟩
    · exact List.forall₂_map_right_iff.2 (List.forall₂_same.2 fun c _ => isPiece_renderCount c)
    · simp [found]

/-- **Rendered lengths of time are exact and unambiguous.** Below `2 ^ 64` milliseconds, the text of a length of time
shows exactly it, and no other length has this text. -/
theorem renderDuration_exact {millis : Nat} (small : millis < 2 ^ 64) :
    Shows millis (renderDuration millis) ∧
      ∀ other < 2 ^ 64, renderDuration other = renderDuration millis → other = millis := by
  have shows := shows_renderDuration small
  refine ⟨shows, fun other small' same => ?_⟩
  have shows' := shows_renderDuration small'
  rw [same] at shows'
  exact shows'.unique shows

/-- The longest time that is not cut uses every unit. -/
theorem renderDuration_exact_longest :
    let longest := 18446744073709551615
    let text := "30500568904 weeks, 6 days, 14 hours, 25 minutes, 51 seconds and 615 milliseconds"
    longest < 2 ^ 64 ∧ Shows longest text ∧ ∀ other < 2 ^ 64, renderDuration other = text → other = longest := by
  intro longest text
  have small : longest < 2 ^ 64 := by decide
  have rendered : renderDuration longest = text := by decide +kernel
  have exact_ := renderDuration_exact small
  rw [rendered] at exact_
  exact ⟨small, exact_⟩

end Phrasebook.Literal
