import Mathlib.Data.Nat.Digits.Defs
import Phrasebook.Proofs.Literal.Integer

/-!
# Which number literals are integers

A number literal is an integer if it is digits behind at most one sign, with blanks around them, and what they stand
for fits into sixty-four bits; it is exactly this integer then. Any other text is a double or no number. What is
rendered of an integer reads back as it.
-/

namespace Phrasebook.Decimal
open Text

/-- What digits stand for by their places, the last of which counts ones. -/
def placeValue (digits : List Char) : Nat :=
  Nat.ofDigits 10 (digits.reverse.map fun d => d.toNat - '0'.toNat)

/-- Digits behind at most one sign are written for an integer. -/
inductive Writes : List Char → Int → Prop where
  | bare {digits : List Char} (some_ : digits ≠ []) (all : ∀ d ∈ digits, isDigit d = true) :
    Writes digits (placeValue digits)
  | plus {digits : List Char} (some_ : digits ≠ []) (all : ∀ d ∈ digits, isDigit d = true) :
    Writes ('+' :: digits) (placeValue digits)
  | minus {digits : List Char} (some_ : digits ≠ []) (all : ∀ d ∈ digits, isDigit d = true) :
    Writes ('-' :: digits) (-placeValue digits)

/-- A text is an integer as it may be written, and blanks around it. -/
def Holds (text : List Char) (value : Int) : Prop :=
  ∃ before number after, (∀ c ∈ before, isBlank c = true) ∧ (∀ c ∈ after, isBlank c = true) ∧
    text = before ++ number ++ after ∧ Writes number value

variable {cs digits text : List Char} {value : Int}

/-- Digits that are read one after the other come to what they stand for by their places. -/
theorem digitValue_eq (digits : List Char) : digitValue digits = placeValue digits := by
  rw [placeValue, Nat.ofDigits_eq_foldr, List.map_reverse, List.foldr_reverse, List.foldl_map, digitValue]
  refine List.foldl_ext _ _ 0 fun n c _ => ?_
  rw [Nat.cast_id, Nat.add_comm]

/-- An integer is read if and only if it is written. -/
theorem readInt?_eq_some : readInt? cs = some value ↔ Writes cs value := by
  constructor
  · intro read
    have digits {digits : List Char} {negative : Bool} (sign : takeSign cs = (negative, digits)) :
        digits ≠ [] ∧ (∀ d ∈ digits, isDigit d = true) ∧
          value = if negative then -(placeValue digits : Int) else placeValue digits := by
      simp only [readInt?, sign] at read
      split at read
      · cases read
      next are =>
        simp only [Bool.or_eq_true, Bool.not_eq_true', not_or, List.isEmpty_iff, Bool.not_eq_false] at are
        refine ⟨are.1, List.all_eq_true.1 are.2, ?_⟩
        rw [← digitValue_eq]
        exact (Option.some.inj read).symm
    unfold takeSign at digits
    split at digits
    · obtain ⟨some_, all, rfl⟩ := digits rfl
      exact .minus some_ all
    · obtain ⟨some_, all, rfl⟩ := digits rfl
      exact .plus some_ all
    · obtain ⟨some_, all, rfl⟩ := digits rfl
      exact .bare some_ all
  · intro writes
    cases writes with
    | bare some_ all =>
      have sign : takeSign cs = (false, cs) := takeSign_signed false all
      rw [readInt?_digits sign some_ all, digitValue_eq]
      rfl
    | @plus digits some_ all =>
      have sign : takeSign ('+' :: digits) = (false, digits) := rfl
      rw [readInt?_digits sign some_ all, digitValue_eq]
      rfl
    | @minus digits some_ all =>
      have sign : takeSign ('-' :: digits) = (true, digits) := rfl
      rw [readInt?_digits sign some_ all, digitValue_eq]
      rfl

/-- No blank stands in an integer. -/
theorem Writes.solid (writes : Writes cs value) : cs ≠ [] ∧ ∀ c ∈ cs, isBlank c = false := by
  have solid {digits : List Char} (all : ∀ d ∈ digits, isDigit d = true) : ∀ c ∈ digits, isBlank c = false :=
    fun c mem => not_isBlank_of_isDigit (all c mem)
  cases writes with
  | bare some_ all => exact ⟨some_, solid all⟩
  | plus some_ all => exact ⟨List.cons_ne_nil _ _, List.forall_mem_cons.2 ⟨by decide, solid all⟩⟩
  | minus some_ all => exact ⟨List.cons_ne_nil _ _, List.forall_mem_cons.2 ⟨by decide, solid all⟩⟩

/-- The blanks around an integer are those that are cut off a text. -/
theorem holds_iff : Holds text value ↔ Writes (trim text) value := by
  constructor
  · rintro ⟨before, number, after, blank, blank', rfl, writes⟩
    obtain ⟨some_, solid⟩ := writes.solid
    rwa [trim_between blank blank' solid some_]
  · intro writes
    obtain ⟨before, after, blank, blank', same⟩ := exists_trim text
    exact ⟨before, trim text, after, blank, blank', same, writes⟩

/-- Digits behind at most one sign are a number without a point. -/
theorem Writes.body (writes : Writes cs value) :
    ∃ n, readDecimal? (takeSign cs).2 = some (n, 0) ∧ (takeSign cs).2.contains '.' = false := by
  have pointless {digits : List Char} (all : ∀ d ∈ digits, isDigit d = true) : digits.contains '.' = false := by
    rw [Bool.eq_false_iff]
    intro point
    exact absurd (all '.' (List.contains_iff_mem.1 point)) (by decide)
  cases writes with
  | bare some_ all =>
    have sign : takeSign cs = (false, cs) := takeSign_signed false all
    rw [sign]
    exact ⟨_, readDecimal?_digits some_ all, pointless all⟩
  | plus some_ all => exact ⟨_, readDecimal?_digits some_ all, pointless all⟩
  | minus some_ all => exact ⟨_, readDecimal?_digits some_ all, pointless all⟩

end Phrasebook.Decimal

namespace Phrasebook.Literal
open Text Decimal

variable {text : String} {value : Int} {n : Int64}

/-- Sixty-four bits hold the integers from `-2 ^ 63` to `2 ^ 63 - 1`. -/
theorem int64?_eq_some : int64? value = some n ↔ (-2 ^ 63 ≤ value ∧ value ≤ 2 ^ 63 - 1) ∧ n.toInt = value := by
  constructor
  · intro fits
    unfold int64? at fits
    split at fits
    next within =>
      cases fits
      exact ⟨within, Int64.toInt_ofInt_of_le within.1 (Int.lt_of_le_sub_one within.2)⟩
    · cases fits
  · rintro ⟨-, rfl⟩
    exact int64?_toInt n

theorem finite?_cases (x : Float) : finite? x = none ∨ finite? x = some (.number x) := by
  unfold finite?
  split
  · exact .inr rfl
  · exact .inl rfl

theorem finite?_ne_int (x : Float) : finite? x ≠ some (.int n) := by
  rcases finite?_cases x with none | number
  · rw [none]
    exact nofun
  · rw [number]
    exact nofun

/-- A number literal without a point is an integer if it is written as one that fits. -/
theorem number?_eq_int : number? text = some (.int n) ↔ (readInt? (trim text.toList)).bind int64? = some n := by
  constructor
  · intro number
    simp only [number?] at number
    split at number
    · cases number
    split at number
    · exact absurd number (finite?_ne_int _)
    · split at number
      next i found =>
        cases number
        exact found
      · exact absurd number (finite?_ne_int _)
  · intro fits
    obtain ⟨value, read, fits'⟩ := Option.bind_eq_some_iff.1 fits
    obtain ⟨m, decimal, pointless⟩ := (readInt?_eq_some.1 read).body
    simp only [number?, decimal, pointless, fits, Bool.false_eq_true, if_false]

theorem number?_cases (text : String) :
    (∃ n, number? text = some (.int n)) ∨ (∃ x, number? text = some (.number x)) ∨ number? text = none := by
  have float (x : Float) :
      (∃ n, finite? x = some (.int n)) ∨ (∃ y, finite? x = some (.number y)) ∨ finite? x = none := by
    rcases finite?_cases x with none | number
    · exact .inr (.inr none)
    · exact .inr (.inl ⟨x, number⟩)
  simp only [number?]
  split
  · exact .inr (.inr rfl)
  split
  · exact float _
  · split
    next n _ => exact .inl ⟨n, rfl⟩
    · exact float _

/-- **Integer literals are exact up to the limits.** A number literal is the integer `value` if and only if the text,
without the blanks at its ends, is digits behind at most one sign that stand for it, and it lies between `-2 ^ 63` and
`2 ^ 63 - 1`. Every other text is a double or no number. Every integer reads back from what is rendered of it. -/
theorem number?_exact :
    (∀ (text : String) (value : Int), Holds text.toList value ∧ -2 ^ 63 ≤ value ∧ value ≤ 2 ^ 63 - 1 ↔
      ∃ n : Int64, n.toInt = value ∧ number? text = some (.int n)) ∧
    (∀ text : String, (∃ n, number? text = some (.int n)) ∨ (∃ x, number? text = some (.number x)) ∨
      number? text = none) ∧
    ∀ n : Int64, number? (renderNumber (.int n)) = some (.int n) := by
  refine ⟨fun text value => ?_, number?_cases, fun n => ?_⟩
  · simp only [number?_eq_int, holds_iff, ← readInt?_eq_some]
    constructor
    · rintro ⟨read, within⟩
      have exact_ : (Int64.ofInt value).toInt = value :=
        Int64.toInt_ofInt_of_le within.1 (Int.lt_of_le_sub_one within.2)
      refine ⟨Int64.ofInt value, exact_, ?_⟩
      rw [read, Option.bind_some, int64?_eq_some]
      exact ⟨within, exact_⟩
    · rintro ⟨n, rfl, fits⟩
      obtain ⟨value, read, fits⟩ := Option.bind_eq_some_iff.1 fits
      obtain ⟨within, same⟩ := int64?_eq_some.1 fits
      rw [same]
      exact ⟨read, within⟩
  · have reads : integer? (renderNumber (.int n)) = some (.int n) := by
      have read := integer?_decimal n
      rwa [decimal, String.ofList_toList] at read
    unfold integer? at reads
    split at reads
    next found => rw [found, reads]
    · cases reads

end Phrasebook.Literal
