import Phrasebook.Decimal.Binary

/-!
# The shortest digits of a double

The decimal with the fewest digits that still reads back as the same double, and of those the nearest.
The decimals that read back fill an interval around the double; for one digit, two digits and so on
the two neighbours of the double on that decimal grid are tested against the interval. If any point of
a grid lies in the interval, one of these two does, so the first grid with a hit has the fewest digits.
-/

namespace Phrasebook.Decimal

/-- The decimal `0.d₁d₂… * 10 ^ point`, with a first digit other than zero unless it is zero. -/
structure Digits where
  digits : List Char
  point : Int
deriving DecidableEq, Repr

/-- Which of two neighbours on a grid is taken where both are equally near. -/
inductive Tie where
  /-- the greater -/
  | up
  /-- the one whose last digit is even -/
  | even
deriving DecidableEq, Repr

/-- The bounds of the decimals that read back as a positive double, and the double itself, all in
units of `2 ^ (exponent - 2)`. -/
structure Interval where
  low : Nat
  value : Nat
  high : Nat
  /-- the bounds themselves read back, too -/
  closed : Bool

/-- The interval around a double. Below a power of two the doubles lie twice as close. -/
def Binary.interval (b : Binary) : Interval where
  low := if b.mantissa == pow2 52 && leastExponent < b.exponent then 4 * b.mantissa - 1
    else 4 * b.mantissa - 2
  value := 4 * b.mantissa
  high := 4 * b.mantissa + 2
  closed := b.mantissa % 2 == 0

/-- The decimal digits of a whole number. -/
def digitsOf (n : Nat) : List Char :=
  Nat.toDigits 10 n

/-- Tests the grid of the multiples of `10 ^ place`. The unit of the interval is `unitNum / unitDen`. -/
def Interval.hit? (i : Interval) (tie : Tie) (unitNum unitDen : Nat) (place : Int) : Option Nat :=
  let stepNum := if 0 ≤ place then pow10 place.toNat * unitDen else unitDen
  let scale := if 0 ≤ place then unitNum else unitNum * pow10 (-place).toNat
  let inside (d : Nat) : Bool :=
    let point := d * stepNum
    if i.closed then i.low * scale ≤ point && point ≤ i.high * scale
    else i.low * scale < point && point < i.high * scale
  let below := i.value * scale / stepNum
  let above := below + 1
  match decide (0 < below) && inside below, inside above with
  | true, true =>
    let overBelow := i.value * scale - below * stepNum
    let underAbove := above * stepNum - i.value * scale
    if overBelow < underAbove then some below
    else if underAbove < overBelow then some above
    else
      match tie with
      | .up => some above
      | .even => some (if below % 2 == 0 then below else above)
  | true, false => some below
  | false, true => some above
  | false, false => none

/-- The first of the grids from `place` downwards that has a hit. -/
def Interval.search (i : Interval) (tie : Tie) (unitNum unitDen : Nat) (place : Int) :
    Nat → Option (Nat × Int)
  | 0 => none
  | steps + 1 =>
    match i.hit? tie unitNum unitDen place with
    | some d => some (d, place)
    | none => i.search tie unitNum unitDen (place - 1) steps

/-- A whole number times `10 ^ place`, without the zeros it ends with. -/
def Digits.ofScaled (n : Nat) (place : Int) : Digits :=
  let cs := digitsOf n
  { digits := (cs.reverse.dropWhile (· == '0')).reverse, point := cs.length + place }

/-- The shortest digits of the absolute value of a double. -/
def shortest (tie : Tie) (b : Binary) : Digits :=
  if b.mantissa == 0 then ⟨['0'], 1⟩
  else
    let (num, den) := b.quotient
    -- the place of the first digit is at most one above this estimate
    let top : Int := if den ≤ num then (digitsOf (num / den)).length
      else 1 - (digitsOf (den / num)).length
    let e := b.exponent - 2
    let (unitNum, unitDen) := if 0 ≤ e then (pow2 e.toNat, 1) else (1, pow2 (-e).toNat)
    match b.interval.search tie unitNum unitDen top 20 with
    | some (d, place) => .ofScaled d place
    | none => .ofScaled (num / den) 0

end Phrasebook.Decimal
