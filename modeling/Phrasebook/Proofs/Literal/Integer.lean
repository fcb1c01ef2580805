import Phrasebook.Proofs.Text.Layout
import Phrasebook.Standard.Types

/-!
# Integers in decimal

An integer is shown in decimal: digits, with a minus in front if it is negative. What is shown reads back as the
integer (`integer?_decimal`). A minus alone is read by none of the standard types.
-/

namespace Phrasebook

namespace Text

theorem isWordChar_of_isDigit {c : Char} (digit : isDigit c = true) : isWordChar c = true := by
  have ascii : isAscii c = true := by
    simp only [isDigit, Bool.and_eq_true, decide_eq_true_eq, Char.le_def, UInt32.le_iff_toNat_le] at digit
    have before : c.toNat ≤ 57 := digit.2
    simp only [isAscii, decide_eq_true_eq]
    omega
  simp [isWordChar, isAlphanumeric, isNumeric, ascii, digit]

theorem not_isBlank_of_isDigit {c : Char} (digit : isDigit c = true) : isBlank c = false := by
  rw [Bool.eq_false_iff]
  intro blank
  have other := not_isWordChar_of_isBlank blank
  rw [isWordChar_of_isDigit digit] at other
  cases other

end Text

namespace Decimal
open Text

theorem digitsOf_ne_nil (n : Nat) : digitsOf n ≠ [] :=
  Nat.toDigits_ne_nil

theorem isDigit_of_mem_digitsOf {n : Nat} {c : Char} (mem : c ∈ digitsOf n) : isDigit c = true := by
  have digit := Nat.isDigit_of_mem_toDigits (by decide) (by decide) mem
  simpa [Char.isDigit, isDigit, Char.le_def] using digit

/-- The digits of a number stand for it. -/
theorem digitValue_digitsOf (n : Nat) : digitValue (digitsOf n) = n :=
  Nat.ofDigitChars_ten_toDigits

/-- A digit is no sign. -/
theorem takeSign_signed {digits : List Char} (negative : Bool) (all : ∀ c ∈ digits, isDigit c = true) :
    takeSign (signed negative digits) = (negative, digits) := by
  cases negative with
  | true => rfl
  | false =>
    show takeSign digits = (false, digits)
    unfold takeSign
    split
    · exact absurd (all '-' List.mem_cons_self) (by decide)
    · exact absurd (all '+' List.mem_cons_self) (by decide)
    · rfl

/-- Digits behind at most one sign are an integer. -/
theorem readInt?_digits {cs digits : List Char} {negative : Bool} (sign : takeSign cs = (negative, digits))
    (some_ : digits ≠ []) (all : ∀ d ∈ digits, isDigit d = true) :
    readInt? cs = some (if negative then -(digitValue digits : Int) else digitValue digits) := by
  have all : digits.all isDigit = true := List.all_eq_true.2 all
  have some_ : digits.isEmpty = false := List.isEmpty_eq_false_iff.2 some_
  simp only [readInt?, sign, all, some_, Bool.not_true, Bool.or_self, Bool.false_eq_true, if_false]

/-- Digits alone are a number without places. -/
theorem readDecimal?_digits {digits : List Char} (some_ : digits ≠ []) (all : ∀ d ∈ digits, isDigit d = true) :
    readDecimal? digits = some (digitValue digits, 0) := by
  have whole : digits.takeWhile isDigit = digits := List.takeWhile_eq_self_iff.2 all
  have nothing : digits.dropWhile isDigit = [] := List.dropWhile_eq_nil_iff.2 all
  have some_ : digits.isEmpty = false := List.isEmpty_eq_false_iff.2 some_
  simp only [readDecimal?, whole, nothing, some_, Bool.false_eq_true, if_false]

/-- A number with a sign reads back. -/
theorem readInt?_signed (negative : Bool) (n : Nat) :
    readInt? (signed negative (digitsOf n)) = some (if negative then -(n : Int) else n) := by
  have all : ∀ c ∈ digitsOf n, isDigit c = true := fun c mem => isDigit_of_mem_digitsOf mem
  rw [readInt?_digits (takeSign_signed negative all) (digitsOf_ne_nil n) all, digitValue_digitsOf]

end Decimal

namespace Literal
open Text

/-- An integer in decimal. -/
def decimal (n : Int64) : List Char :=
  (Value.int n).display.toList

theorem decimal_eq (n : Int64) :
    decimal n = Decimal.signed (decide (n.toInt < 0)) (Decimal.digitsOf n.toInt.natAbs) := by
  have shown : decimal n = n.toInt.repr.toList := congrArg String.toList Int.toString_eq_repr
  rw [shown, Int.repr_eq_if]
  by_cases negative : n.toInt < 0
  · have size : (-n.toInt).toNat = n.toInt.natAbs := by omega
    rw [if_neg (by omega), size, decide_eq_true negative, String.toList_append, Nat.toList_repr]
    rfl
  · have size : n.toInt.toNat = n.toInt.natAbs := by omega
    rw [if_pos (by omega), size, decide_eq_false negative, Nat.toList_repr]
    rfl

/-- What an integer in decimal is made of. -/
theorem decimal_cases (n : Int64) :
    ∃ digits, digits ≠ [] ∧ (∀ c ∈ digits, isDigit c = true) ∧
      (decimal n = digits ∨ decimal n = '-' :: digits) := by
  refine ⟨_, Decimal.digitsOf_ne_nil n.toInt.natAbs, fun c mem => Decimal.isDigit_of_mem_digitsOf mem, ?_⟩
  rw [decimal_eq]
  cases decide (n.toInt < 0) with
  | true => exact .inr rfl
  | false => exact .inl rfl

theorem decimal_ne_nil (n : Int64) : decimal n ≠ [] := by
  obtain ⟨digits, some_, -, same | same⟩ := decimal_cases n
  · rwa [same]
  · rw [same]
    exact List.cons_ne_nil _ _

/-- An integer is no minus alone. -/
theorem decimal_ne_minus (n : Int64) : decimal n ≠ ['-'] := by
  intro minus
  obtain ⟨digits, some_, all, same | same⟩ := decimal_cases n
  · rw [minus] at same
    exact absurd (all '-' (same ▸ List.mem_singleton_self '-')) (by decide)
  · rw [minus] at same
    cases same
    exact some_ rfl

/-- No sign but a minus stands in an integer. -/
theorem not_mem_decimal {n : Int64} {c : Char} (other : isDigit c = false) (sign : c ≠ '-') : c ∉ decimal n := by
  intro mem
  have digit : isDigit c = true := by
    obtain ⟨digits, -, all, same | same⟩ := decimal_cases n
    · exact all c (same ▸ mem)
    · rw [same] at mem
      exact all c ((List.mem_cons.1 mem).resolve_left sign)
  rw [digit] at other
  cases other

/-- No blank stands in an integer. -/
theorem not_isBlank_of_mem_decimal {n : Int64} {c : Char} (mem : c ∈ decimal n) : isBlank c = false := by
  rw [Bool.eq_false_iff]
  intro blank
  have other : isDigit c = false := by
    rw [Bool.eq_false_iff]
    intro digit
    rw [not_isBlank_of_isDigit digit] at blank
    cases blank
  refine not_mem_decimal other ?_ mem
  rintro rfl
  exact absurd blank (by decide)

/-- An integer starts with no blank. -/
theorem decimal_starts (n : Int64) : ∃ c rest, decimal n = c :: rest ∧ isBlank c = false := by
  obtain ⟨c, rest, shape⟩ := List.exists_cons_of_ne_nil (decimal_ne_nil n)
  exact ⟨c, rest, shape, not_isBlank_of_mem_decimal (n := n) (by simp [shape])⟩

/-- An integer ends with no blank. -/
theorem decimal_ends (n : Int64) : ∃ before c, decimal n = before ++ [c] ∧ isBlank c = false := by
  obtain ⟨before, c, shape⟩ := (List.eq_nil_or_concat (decimal n)).resolve_left (decimal_ne_nil n)
  rw [List.concat_eq_append] at shape
  exact ⟨before, c, shape, not_isBlank_of_mem_decimal (n := n) (by simp [shape])⟩

/-- Sixty-four bits hold every value that they hold. -/
theorem int64?_toInt (n : Int64) : int64? n.toInt = some n := by
  rw [int64?, if_pos ⟨n.minValue_le_toInt, n.toInt_le⟩, Int64.ofInt_toInt]

/-- **An integer in decimal reads back.** -/
theorem integer?_decimal (n : Int64) : integer? (String.ofList (decimal n)) = some (.int n) := by
  have trimmed : trim (decimal n) = decimal n := trim_of_solid fun c mem => not_isBlank_of_mem_decimal mem
  have sign : Decimal.takeSign (decimal n) = (decide (n.toInt < 0), Decimal.digitsOf n.toInt.natAbs) := by
    rw [decimal_eq]
    exact Decimal.takeSign_signed _ fun c mem => Decimal.isDigit_of_mem_digitsOf mem
  have whole : Decimal.readInt? (decimal n) = some n.toInt := by
    rw [decimal_eq, Decimal.readInt?_signed]
    simp only [decide_eq_true_eq, Option.some.injEq]
    split <;> omega
  have pointless : (Decimal.digitsOf n.toInt.natAbs).contains '.' = false := by
    rw [Bool.eq_false_iff]
    intro point
    exact absurd (Decimal.isDigit_of_mem_digitsOf (List.contains_iff_mem.1 point)) (by decide)
  have decimal := Decimal.readDecimal?_digits (Decimal.digitsOf_ne_nil n.toInt.natAbs) fun c mem =>
    Decimal.isDigit_of_mem_digitsOf mem
  simp only [integer?, number?, String.toList_ofList, trimmed, sign, decimal, whole, pointless, Option.bind_some,
    int64?_toInt, Bool.false_eq_true, if_false]

/-- **No standard type reads a minus alone.** -/
theorem read?_minus {spec : TypeSpec} (standard : spec ∈ Standard.types) : spec.read? "-" = none := by
  have none : Standard.types.all (fun spec => (spec.read? "-").isNone) = true := by decide +kernel
  exact Option.isNone_iff_eq_none.1 (List.all_eq_true.1 none spec standard)

end Literal

end Phrasebook
