import Phrasebook.Literal.Number

/-!
# Times of day

A time of day is written with a colon between hours and minutes, and optionally seconds. The hour may
have one digit, the other parts have two.
-/

namespace Phrasebook.Literal
open Phrasebook.Text

/-- A number of at least `least` and at most two digits. -/
def timeField? (least : Nat) (cs : List Char) : Option Nat :=
  if least ≤ cs.length && cs.length ≤ 2 && cs.all isDigit then some (Decimal.digitValue cs) else none

/-- Reads a time of day. -/
def time? (text : String) : Option TimeOfDay :=
  match splitOn (· == ':') (trim text.toList) with
  | [h, m] => do TimeOfDay.ofParts? (← timeField? 1 h) (← timeField? 2 m) 0
  | [h, m, s] => do TimeOfDay.ofParts? (← timeField? 1 h) (← timeField? 2 m) (← timeField? 2 s)
  | _ => none

end Phrasebook.Literal
