import Phrasebook.Decimal.Shortest
import Phrasebook.Text.Character

/-!
# Written decimals

How a double is laid out as text, and how text is read as a double. Two layouts are in use: the plain
one never has an exponent and marks no whole number; the data layout does both.
-/

namespace Phrasebook.Decimal
open Phrasebook.Text

/-- The choices that a written form of doubles makes. -/
structure Layout where
  tie : Tie
  /-- the positions of the point that are written without an exponent -/
  isPositional : Int → Bool
  /-- what follows the digits of a whole number -/
  wholeMark : List Char

/-- All digits, nothing after those of a whole number, and the greater of two equally near. -/
def Layout.plain : Layout where
  tie := .up
  isPositional _ := true
  wholeMark := []

/-- A signed exponent outside of sixteen places before and four zeros after the point, and the even one
of two equally near. -/
def Layout.data : Layout where
  tie := .even
  isPositional point := -5 < point && point ≤ 16
  wholeMark := ['.', '0']

/-- Digits in a layout. -/
def Digits.render (layout : Layout) (d : Digits) : List Char :=
  let n : Int := d.digits.length
  if layout.isPositional d.point then
    if d.point ≤ 0 then
      ['0', '.'] ++ List.replicate (-d.point).toNat '0' ++ d.digits
    else if n ≤ d.point then
      d.digits ++ List.replicate (d.point - n).toNat '0' ++ layout.wholeMark
    else d.digits.take d.point.toNat ++ ['.'] ++ d.digits.drop d.point.toNat
  else
    let exponent := d.point - 1
    let mark := if exponent < 0 then ['e', '-'] else ['e', '+']
    let head := match d.digits with
      | [] => []
      | [c] => [c]
      | c :: cs => c :: '.' :: cs
    head ++ mark ++ digitsOf exponent.natAbs

/-- A sign in front of a negative number. -/
def signed (negative : Bool) (cs : List Char) : List Char :=
  if negative then '-' :: cs else cs

/-- The text of a finite double. -/
def Binary.render (layout : Layout) (b : Binary) : String :=
  String.ofList (signed b.negative ((shortest layout.tie b).render layout))

/-- A double with the fewest digits that read back as it, never with an exponent. -/
def render (x : Float) : String :=
  match Shape.ofFloat x with
  | .finite b => b.render .plain
  | .infinite negative => if negative then "-inf" else "inf"
  | .nan => "NaN"

/-- A double as data; there is no text for one that is not finite. -/
def renderData? (x : Float) : Option String :=
  match Shape.ofFloat x with
  | .finite b => some (b.render .data)
  | _ => none

/-- The exact digits of a whole double followed by `.0`. -/
def renderWhole? (x : Float) : Option String :=
  match Shape.ofFloat x with
  | .finite b => b.toInt?.map fun n =>
    String.ofList (signed b.negative (digitsOf n.natAbs ++ ['.', '0']))
  | _ => none

/-- The number that a list of digits stands for. -/
def digitValue (cs : List Char) : Nat :=
  cs.foldl (fun n c => 10 * n + (c.toNat - '0'.toNat)) 0

/-- A sign, if the text starts with one, and the rest. -/
def takeSign : List Char → Bool × List Char
  | '-' :: cs => (true, cs)
  | '+' :: cs => (false, cs)
  | cs => (false, cs)

/-- A whole number with an optional sign, and nothing else. -/
def readInt? (cs : List Char) : Option Int :=
  let (negative, digits) := takeSign cs
  if digits.isEmpty || !digits.all isDigit then none
  else
    let n : Int := digitValue digits
    some (if negative then -n else n)

/-- A whole number without a sign other than `+`. -/
def readNat? (cs : List Char) : Option Nat :=
  let digits := match cs with
    | '+' :: rest => rest
    | _ => cs
  if digits.isEmpty || !digits.all isDigit then none else some (digitValue digits)

/-- Digits with at most one point among them, as a whole number and a power of ten. -/
def readDecimal? (cs : List Char) : Option (Nat × Int) :=
  let whole := cs.takeWhile isDigit
  match cs.dropWhile isDigit with
  | [] => if whole.isEmpty then none else some (digitValue whole, 0)
  | '.' :: places =>
    if (whole.isEmpty && places.isEmpty) || !places.all isDigit then none
    else some (digitValue (whole ++ places), -(places.length : Int))
  | _ => none

/-- The double nearest to a decimal text: an optional sign, then a name of a value that is not finite
or digits with an optional point and an optional exponent. -/
def read? (cs : List Char) : Option Float :=
  let (negative, body) := takeSign cs
  let word := String.ofList (body.map lowerAscii)
  if word == "inf" || word == "infinity" then
    some (Float.ofBits (infiniteBits negative).toUInt64)
  else if word == "nan" then some (0.0 / 0.0)
  else
    let isMark (c : Char) : Bool := c == 'e' || c == 'E'
    let front := body.takeWhile fun c => !isMark c
    match readDecimal? front, body.dropWhile (fun c => !isMark c) with
    | some (n, e), [] => some (nearest negative n e)
    | some (n, e), _ :: exponent => (readInt? exponent).map fun k => nearest negative n (e + k)
    | none, _ => none

end Phrasebook.Decimal
