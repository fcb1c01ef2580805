import Phrasebook.Text.Words
import Phrasebook.Value

/-!
# Number literals

A number is an optional sign and digits with at most one point. Without a point it is an integer if it
fits into sixty-four bits, and otherwise the nearest double.
-/

namespace Phrasebook.Literal
open Phrasebook.Text

/-- The sixty-four bit integer with this value, if there is one. -/
def int64? (n : Int) : Option Int64 :=
  if Int64.minValue.toInt ≤ n ∧ n ≤ Int64.maxValue.toInt then some (Int64.ofInt n) else none

/-- A double as a value, if it is finite. -/
def finite? (x : Float) : Option Value :=
  match Decimal.Shape.ofFloat x with
  | .finite _ => some (.number x)
  | _ => none

/-- A sign, digits and at most one point between, before or after them. -/
def number? (text : String) : Option Value :=
  let cs := trim text.toList
  let (negative, body) := Decimal.takeSign cs
  match Decimal.readDecimal? body with
  | none => none
  | some (n, exponent) =>
    let float := finite? (Decimal.nearest negative n exponent)
    if body.contains '.' then float
    else
      match (Decimal.readInt? cs).bind int64? with
      | some i => some (.int i)
      | none => float

/-- A number literal that is an integer. -/
def integer? (text : String) : Option Value :=
  match number? text with
  | some (.int n) => some (.int n)
  | _ => none

/-- A number as text that reads back as the same value; other values as they are shown. -/
def renderNumber : Value → String
  | .number x => (Decimal.renderWhole? x).getD (Decimal.render x)
  | v => v.display

/-- A number without a fraction that fits as an integer; an integer itself. -/
def wholeNumber? : Value → Option Value
  | .int n => some (.int n)
  | .number x =>
    match Decimal.Shape.ofFloat x with
    | .finite b => (b.toInt?.bind int64?).map Value.int
    | _ => none
  | _ => none

/-- `true` or `false` in any letter case. -/
def boolean? (text : String) : Option Value :=
  let word := lowerAsciiString (trimString text)
  if word == "true" then some (.bool true)
  else if word == "false" then some (.bool false)
  else none

end Phrasebook.Literal
