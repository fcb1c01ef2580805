/-!
# Doubles as exact numbers

A finite double is a whole number times a power of two, and rounding a quotient of whole numbers to
the nearest double is a computation on whole numbers. Everything that reads or writes the digits of a
double goes through this form, so no step of it rounds twice.
-/

namespace Phrasebook.Decimal

/-- A power of two. -/
def pow2 (n : Nat) : Nat :=
  Nat.pow 2 n

/-- A power of ten. -/
def pow10 (n : Nat) : Nat :=
  Nat.pow 10 n

/-- The number `mantissa * 2 ^ exponent`, negated when `negative`. -/
structure Binary where
  negative : Bool
  mantissa : Nat
  exponent : Int
deriving DecidableEq, Repr

/-- What a double stands for. -/
inductive Shape where
  | finite (value : Binary)
  | infinite (negative : Bool)
  | nan
deriving DecidableEq, Repr

/-- The exponent of the least positive double. -/
def leastExponent : Int := -1074

/-- Reads the fields of a double: sign, eleven bits of exponent, fifty-two of mantissa. -/
def Shape.ofBits (bits : Nat) : Shape :=
  let negative := bits / pow2 63 % 2 == 1
  let biased : Nat := bits / pow2 52 % pow2 11
  let fraction : Nat := bits % pow2 52
  if biased == 2047 then
    if fraction == 0 then .infinite negative else .nan
  else if biased == 0 then .finite ⟨negative, fraction, leastExponent⟩
  else .finite ⟨negative, fraction + pow2 52, (biased : Int) - 1 + leastExponent⟩

/-- What a float stands for. -/
def Shape.ofFloat (x : Float) : Shape :=
  .ofBits x.toBits.toNat

/-- The number without its sign as a quotient of whole numbers. -/
def Binary.quotient (b : Binary) : Nat × Nat :=
  if 0 ≤ b.exponent then (b.mantissa * pow2 b.exponent.toNat, 1)
  else (b.mantissa, pow2 (-b.exponent).toNat)

/-- The number, if it is whole. -/
def Binary.toInt? (b : Binary) : Option Int :=
  let (num, den) := b.quotient
  if num % den == 0 then
    let n : Int := num / den
    some (if b.negative then -n else n)
  else none

/-- The whole number nearest to a quotient, a half going to the even neighbour. -/
def roundHalfEven (num den : Nat) : Nat :=
  let whole := num / den
  let rest := num % den
  if 2 * rest < den then whole
  else if den < 2 * rest then whole + 1
  else if whole % 2 == 0 then whole else whole + 1

/-- The exponent at which a positive quotient has a mantissa of fifty-three bits, or the least
exponent if that is larger. The leading bits of the two numbers leave a choice of two. -/
def mantissaExponent (num den : Nat) : Int :=
  let guess : Int := (num.log2 : Int) - den.log2 - 52
  let fits (e : Int) : Bool :=
    if 0 ≤ e then num < pow2 53 * (den * pow2 e.toNat)
    else num * pow2 (-e).toNat < pow2 53 * den
  max (if fits (guess - 1) then guess - 1 else guess) leastExponent

/-- The bits of an infinite double. -/
def infiniteBits (negative : Bool) : Nat :=
  (if negative then pow2 63 else 0) + 2047 * pow2 52

/-- The bits of the double nearest to `num / den`, a half going to the even mantissa. -/
def nearestBits (negative : Bool) (num den : Nat) : Nat :=
  let sign := if negative then pow2 63 else 0
  if num == 0 then sign
  else
    let e := mantissaExponent num den
    let m := if 0 ≤ e then roundHalfEven num (den * pow2 e.toNat)
      else roundHalfEven (num * pow2 (-e).toNat) den
    -- a mantissa rounded up to fifty-four bits is the next power of two
    let (m, e) := if m == pow2 53 then (pow2 52, e + 1) else (m, e)
    let biased := (e - leastExponent).toNat + 1
    if 2047 ≤ biased then infiniteBits negative
    else if m < pow2 52 then sign + m
    else sign + biased * pow2 52 + (m - pow2 52)

/-- The double nearest to a decimal `digits * 10 ^ exponent`. -/
def nearest (negative : Bool) (digits : Nat) (exponent : Int) : Float :=
  let bits :=
    if digits == 0 then nearestBits negative 0 1
    else if 400 < exponent then infiniteBits negative
    else if exponent + (digits.log2 : Int) < -1200 then nearestBits negative 0 1
    else if 0 ≤ exponent then nearestBits negative (digits * pow10 exponent.toNat) 1
    else nearestBits negative digits (pow10 (-exponent).toNat)
  Float.ofBits bits.toUInt64

end Phrasebook.Decimal
