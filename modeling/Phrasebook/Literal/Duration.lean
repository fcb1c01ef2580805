import Phrasebook.Literal.Number

/-!
# Lengths of time

A length of time is written as amounts of units, `1 hour, 2 minutes and 3.5 seconds`, and rendered back
in whole units, the largest first.
-/

namespace Phrasebook.Literal
open Phrasebook.Text

/-- A unit of time with its names and its length in milliseconds. -/
structure Unit where
  singular : String
  plural : String
  millis : Nat
deriving DecidableEq, Repr

/-- The units that rendering uses, the largest first. -/
def renderedUnits : List Unit :=
  [⟨"week", "weeks", 604800000⟩, ⟨"day", "days", 86400000⟩, ⟨"hour", "hours", 3600000⟩,
   ⟨"minute", "minutes", 60000⟩, ⟨"second", "seconds", 1000⟩,
   ⟨"millisecond", "milliseconds", 1⟩]

/-- The units that can be read: also the tick of a twentieth of a second. -/
def readUnits : List Unit :=
  ⟨"tick", "ticks", 50⟩ :: renderedUnits

/-- An amount written before a unit; the article stands for one. -/
def amount? (word : List Char) : Option Float :=
  if word == ['a'] || word == ['a', 'n'] then some 1.0
  else (number? (String.ofList word)).bind Value.number?

/-- The milliseconds of an amount of a unit, rounded with halves away from zero. -/
def millisOf? (amount : Float) (unit : Unit) : Option Nat :=
  match Decimal.Shape.ofFloat (amount * unit.millis.toFloat).round with
  | .finite b => b.toInt?.bind fun n => if 0 ≤ n ∧ n < UInt64.size then some n.toNat else none
  | _ => none

/-- The words of a text, with every comma as a word of its own. -/
def durationWords (text : String) : List (List Char) :=
  words ((lower text.toList).flatMap fun c => if c == ',' then [' ', ',', ' '] else [c])

/-- Adds up amounts and units that `and` or a comma separates. The sum stays below `2 ^ 64`. -/
def sumDurations? (total : Nat) : List (List Char) → Option Nat
  | amount :: unit :: rest => do
    let unit ← readUnits.find? fun u =>
      String.ofList unit == u.singular || String.ofList unit == u.plural
    let millis ← millisOf? (← amount? amount) unit
    let total := total + millis
    if UInt64.size ≤ total then none
    else
      match rest with
      | [] => some total
      | separator :: more =>
        if separator == ['a', 'n', 'd'] || separator == [','] then sumDurations? total more
        else none
  | _ => none

/-- Reads a length of time in milliseconds. -/
def duration? (text : String) : Option Nat :=
  sumDurations? 0 (durationWords text)

/-- The counts of the units that a length of time is made of, from the first unit on. -/
def unitCounts : List Unit → Nat → List (Nat × Unit)
  | [], _ => []
  | unit :: units, millis =>
    let rest := unitCounts units (millis % unit.millis)
    if millis / unit.millis = 0 then rest else (millis / unit.millis, unit) :: rest

/-- A count with the name of its unit. -/
def renderCount (count : Nat) (unit : Unit) : String :=
  toString count ++ " " ++ if count = 1 then unit.singular else unit.plural

/-- Pieces with commas between them and `and` before the last. -/
def joinPieces : List String → String
  | [] => "0 seconds"
  | [last] => last
  | [piece, last] => piece ++ " and " ++ last
  | piece :: pieces => piece ++ ", " ++ joinPieces pieces

/-- A length of time in whole units; one of `2 ^ 64` milliseconds or more is cut to the greatest below
that. -/
def renderDuration (millis : Nat) : String :=
  joinPieces ((unitCounts renderedUnits (min millis (UInt64.size - 1))).map fun (n, u) => renderCount n u)

end Phrasebook.Literal
